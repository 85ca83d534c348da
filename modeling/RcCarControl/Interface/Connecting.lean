import RcCarControl.Interface.Client

/-!
# Connections that fail

`connect`, `logConnect` and `drvConnect` make up to seven system calls in a row, any of which may fail (`Results`).  None of
them closes the socket it opened when a later call fails, and what was stored in the client by then stays: after a refused
init message the client says that it is connected.  A failed call leaves everything as it was only if it fails before it
has opened its socket (`unharmed_iff_settles`).
-/

namespace RcCarControl.Interface

open LittleEndian

/-! ### System calls -/

/-- What the system calls return, each of which a call of the client makes at most once, and the reads in turn. -/
structure Results where
  socket : Int
  host : Option U32
  connect : Int
  sockname : Option SockaddrIn
  write : Int
  /-- `none` is a failed read. -/
  reads : List (Option (List Byte))
  stack : List Byte
  heap : List Byte

/-- The results, and the sockets that were opened and not closed. -/
abbrev Attempt := Results × List Int

/-- A `read` returns at most as many bytes as asked for; behind the last one it never returns. -/
def resultsNet : Net Attempt where
  socket _ w := (w.1.socket, w.1, if w.1.socket < 0 then w.2 else w.1.socket :: w.2)
  gethostbyname _ w := (w.1.host, w)
  connect _ _ _ w := (w.1.connect, w)
  getsockname _ w := (w.1.sockname, w)
  write _ _ w := (w.1.write, w)
  read _ n w :=
    match w.1.reads with
    | [] => none
    | none :: reads => some (-1, [], { w.1 with reads := reads }, w.2)
    | some bytes :: reads => some (((bytes.take n).length : Int), bytes.take n, { w.1 with reads := reads }, w.2)
  close fd w := (w.1, w.2.erase fd)
  stack w := w.1.stack
  heap w := w.1.heap

/-! ### Calls -/

inductive Connecting where
  | connect (hostname : List Char) (port : Int)
  | logConnect (aStr : List Byte) (fullLog : Bool)
  | drvConnect

namespace Connecting

def run (cl : Client) (w : Attempt) : Connecting → Option (Out Attempt)
  | .connect hostname port => cl.connect resultsNet hostname port w
  | .logConnect aStr fullLog => (cl.logConnect resultsNet aStr fullLog w).map Prod.fst
  | .drvConnect => cl.drvConnect resultsNet w

/-- What the caller goes by is as before. -/
def Kept (cl cl' : Client) : Connecting → Prop
  | .connect _ _ => cl'.isConnected = cl.isConnected
  | .logConnect _ _ => cl'.mLogFd = cl.mLogFd
  | .drvConnect => cl'.mDrvFd = cl.mDrvFd

/-- A call that fails keeps this, and no socket that it opened is left open. -/
def Unharmed (cl : Client) (r : Results) (op : Connecting) : Prop :=
  ∀ out ∈ op.run cl (r, []), out.ret < 0 → op.Kept cl out.cl ∧ out.w.2 = []

end Connecting

/-! ### What lets a call succeed -/

/-- The first `read`, if it returns, gets a reply that is good. -/
def Results.Replies (r : Results) (n : Nat) (good : List Byte → Prop) : Prop :=
  ∀ x ∈ r.reads.head?, ∃ bytes, x = some bytes ∧ good (bytes.take n)

def InitAcked (reply : List Byte) : Prop :=
  reply.length = msgInitSize ∧ (MsgInit.ofBytes reply).status = rcciStatusAck

def Registered (cl : Client) (reply : List Byte) : Prop :=
  reply.length = msgRegServiceSize ∧ (MsgRegService.ofBytes reply).status = rcciStatusAck ∧
    (MsgRegService.ofBytes reply).header.magic = cl.mMagic ∧ (MsgRegService.ofBytes reply).header.ver = cl.mVersion ∧
      (MsgRegService.ofBytes reply).header.type = rcciMsgRegService ∧
        0 ≤ (MsgRegService.ofBytes reply).header.size.toInt

/-- The number of bytes that the reply announces behind it. -/
def announced (reply : List Byte) : U32 := (MsgRegService.ofBytes reply).header.size - BitVec.ofNat 32 msgRegServiceSize

/-- The log that is asked for and announced is the second `read`, and it returns it whole. -/
def Results.ReadsLog (r : Results) (fullLog : Bool) (reply : List Byte) : Prop :=
  fullLog = true → 0 < announced reply → 0 ≤ (announced reply).toInt →
    ∀ x ∈ r.reads[1]?, ∃ bytes, x = some bytes ∧ (announced reply).toInt.toNat ≤ bytes.length

/-- The socket is not opened, or everything behind it succeeds. -/
def Connecting.Settles (cl : Client) (r : Results) : Connecting → Prop
  | .connect _ port =>
    r.socket < 0 ∨ (r.host.isSome ∧ 0 ≤ r.connect ∧ 0 < port ∧ 0 < r.socket ∧ 0 ≤ r.write ∧
      r.Replies msgInitSize InitAcked)
  | .logConnect _ fullLog =>
    cl.mLogPort ≤ 0 ∨ r.socket < 0 ∨ (0 ≤ r.connect ∧ r.sockname.isSome ∧ 0 ≤ r.write ∧
      r.Replies msgRegServiceSize fun reply => Registered cl reply ∧ r.ReadsLog fullLog reply)
  | .drvConnect =>
    cl.mDrvPort ≤ 0 ∨ r.socket < 0 ∨ (0 ≤ r.connect ∧ r.sockname.isSome ∧ 0 ≤ r.write ∧
      r.Replies msgRegServiceSize (Registered cl))

/-! ### Outcomes -/

/-- The call does not return a negative value. -/
def Succeeds {σ : Type} (call : Option (Out σ)) : Prop := ∀ out ∈ call, 0 ≤ out.ret

/-- The call leaves these sockets open and the descriptors of the client alone. -/
def LeavesOpen (fds : List Int) (cl : Client) (call : Option (Out Attempt)) : Prop :=
  ∀ out ∈ call, out.w.2 = fds ∧ out.cl.mLogFd = cl.mLogFd ∧ out.cl.mDrvFd = cl.mDrvFd

theorem succeeds_some {σ : Type} (out : Out σ) : Succeeds (some out) ↔ 0 ≤ out.ret := by
  constructor
  · intro h
    exact h out rfl
  · intro h out' hout
    cases hout
    exact h

theorem not_succeeds_failed {σ : Type} (cl : Client) (w : σ) : ¬ Succeeds (some ⟨cl, w, -1⟩) := by
  rw [succeeds_some]
  exact Int.not_le.2 (by decide : (-1 : Int) < 0)

theorem succeeds_none {σ : Type} : Succeeds (none : Option (Out σ)) := by
  intro out hout
  cases hout

theorem Succeeds.congr {σ α : Type} {call : Option α} {f g : α → Out σ}
    (h : ∀ a ∈ call, (0 ≤ (f a).ret ↔ 0 ≤ (g a).ret)) : Succeeds (call.map f) ↔ Succeeds (call.map g) := by
  cases call with
  | none => exact iff_of_true succeeds_none succeeds_none
  | some a => exact (succeeds_some (f a)).trans ((h a rfl).trans (succeeds_some (g a)).symm)

theorem replies_some {r : Results} {n : Nat} {good : List Byte → Prop} {bytes : List Byte}
    {reads : List (Option (List Byte))} (hr : r.reads = some bytes :: reads) : r.Replies n good ↔ good (bytes.take n) := by
  simp [Results.Replies, hr]

theorem not_replies_none {r : Results} {n : Nat} {good : List Byte → Prop} {reads : List (Option (List Byte))}
    (hr : r.reads = none :: reads) : ¬ r.Replies n good := by
  simp [Results.Replies, hr]

theorem replies_nil {r : Results} {n : Nat} {good : List Byte → Prop} (hr : r.reads = []) : r.Replies n good := by
  simp [Results.Replies, hr]

/-! ### Requests -/

namespace Client

variable {cl : Client} {w : Attempt}

/-- A request is not written, or its reply is not read, or it is read and checked. -/
theorem request_results (cl : Client) (msg : List Byte) (check : Int → List Byte → Int) (w : Attempt) :
    cl.request resultsNet msg check w =
      if w.1.write < 0 then some (⟨cl, w, -1⟩, msg)
      else
        match w.1.reads with
        | [] => none
        | none :: reads =>
          some (⟨{ cl with returned := cl.returned ++ [(-1, msg)] }, ({ w.1 with reads := reads }, w.2), -1⟩, msg)
        | some bytes :: reads =>
          let reply := bytes.take msg.length
          let msg := reply ++ msg.drop reply.length
          let ret := check reply.length msg
          some (⟨{ cl with returned := cl.returned ++ [(ret, msg)] }, ({ w.1 with reads := reads }, w.2), ret⟩, msg) := by
  unfold request resultsNet
  by_cases hw : w.1.write < 0
  · simp [hw]
  · cases hr : w.1.reads with
    | nil => simp [hw, hr]
    | cons x reads =>
      cases x with
      | none => simp [hw, hr]
      | some bytes =>
        have hlen : ¬ (((bytes.take msg.length).length : Int) < 0) := by omega
        simp only [hw, hr, if_false, if_neg hlen, Option.map_some]

theorem request_leavesOpen (msg : List Byte) (check : Int → List Byte → Int) :
    LeavesOpen w.2 cl ((cl.request resultsNet msg check w).map Prod.fst) := by
  intro out hout
  rw [request_results] at hout
  split at hout
  · cases hout
    exact ⟨rfl, rfl, rfl⟩
  · split at hout
    · cases hout
    · cases hout
      exact ⟨rfl, rfl, rfl⟩
    · cases hout
      exact ⟨rfl, rfl, rfl⟩

/-- A request succeeds if it is written and its reply passes the check. -/
theorem request_succeeds {msg : List Byte} {check : Int → List Byte → Int} {good : List Byte → Prop}
    (hgood : ∀ reply, reply.length ≤ msg.length →
      (0 ≤ check reply.length (reply ++ msg.drop reply.length) ↔ good reply)) :
    Succeeds ((cl.request resultsNet msg check w).map Prod.fst) ↔ 0 ≤ w.1.write ∧ w.1.Replies msg.length good := by
  rw [request_results]
  by_cases hw : w.1.write < 0
  · rw [if_pos hw]
    exact iff_of_false (not_succeeds_failed cl w) fun h => absurd h.1 (by omega)
  · rw [if_neg hw]
    have hw' : 0 ≤ w.1.write := by omega
    cases hr : w.1.reads with
    | nil => exact iff_of_true succeeds_none ⟨hw', replies_nil hr⟩
    | cons x reads =>
      cases x with
      | none =>
        exact iff_of_false (not_succeeds_failed _ _) fun h => not_replies_none hr h.2
      | some bytes =>
        simp only [Option.map_some, succeeds_some, hw', true_and]
        rw [replies_some hr]
        exact hgood _ (List.length_take_le _ _)

theorem checkInit_nonneg (bytes : Int) (msg : List Byte) :
    0 ≤ checkInit bytes msg ↔ bytes = msgInitSize ∧ (MsgInit.ofBytes msg).status = rcciStatusAck := by
  unfold checkInit
  by_cases h : (MsgInit.ofBytes msg).status ≠ rcciStatusAck ∨ bytes ≠ msgInitSize
  · rw [if_pos h]
    refine iff_of_false (by omega) fun hgood => ?_
    rcases h with h | h
    · exact h hgood.2
    · exact h hgood.1
  · rw [if_neg h]
    rw [not_or, not_not, not_not] at h
    exact iff_of_true (by omega) ⟨h.2, h.1⟩

theorem checkRegister_nonneg (cl : Client) (bytes : Int) (msg : List Byte) :
    0 ≤ cl.checkRegister bytes msg ↔ bytes = msgRegServiceSize ∧ (MsgRegService.ofBytes msg).status = rcciStatusAck ∧
      (MsgRegService.ofBytes msg).header.magic = cl.mMagic ∧ (MsgRegService.ofBytes msg).header.ver = cl.mVersion ∧
        (MsgRegService.ofBytes msg).header.type = rcciMsgRegService ∧
          0 ≤ (MsgRegService.ofBytes msg).header.size.toInt := by
  unfold checkRegister
  simp only
  split
  · next h => exact iff_of_false (by omega) fun hgood => h hgood.2.1
  · next hack =>
    split
    · next h =>
      refine iff_of_false (by omega) fun hgood => ?_
      rcases h with h | h | h | h
      · exact h hgood.2.2.1
      · exact h hgood.2.2.2.1
      · exact h hgood.2.2.2.2.1
      · exact h hgood.1
    · next h =>
      rw [not_or, not_or, not_or, not_not, not_not, not_not, not_not] at h
      rw [not_not] at hack
      constructor
      · intro hsize
        exact ⟨h.2.2.2, hack, h.1, h.2.1, h.2.2.1, hsize⟩
      · intro hgood
        exact hgood.2.2.2.2.2

/-- A whole reply takes the place of the message. -/
theorem reply_whole {reply msg : List Byte} {n : Nat} (hmsg : msg.length = n) (h : reply.length = n) :
    reply ++ msg.drop reply.length = reply := by
  rw [List.drop_of_length_le (by omega), List.append_nil]

theorem sendInitMsg_succeeds :
    Succeeds (cl.sendInitMsg resultsNet w) ↔
      cl.isConnected ∧ 0 ≤ w.1.write ∧ w.1.Replies msgInitSize InitAcked := by
  unfold sendInitMsg
  by_cases hc : cl.isConnected = true
  · rw [if_pos hc]
    simp only [hc, true_and]
    rw [Succeeds.congr (g := Prod.fst)]
    · refine request_succeeds fun reply _ => ?_
      rw [checkInit_nonneg, Int.natCast_inj]
      refine and_congr_right fun hlen => ?_
      rw [reply_whole (MsgInit.length_toBytes _) hlen]
    · intro out _
      by_cases hret : out.1.ret < 0
      · rw [if_pos hret]
        simp only
        omega
      · rw [if_neg hret]
        simp only
        omega
  · rw [if_neg hc]
    exact iff_of_false (not_succeeds_failed cl w) fun h => hc h.1

theorem sendInitMsg_leavesOpen : LeavesOpen w.2 cl (cl.sendInitMsg resultsNet w) := by
  intro out hout
  unfold sendInitMsg at hout
  split at hout
  · obtain ⟨r, hr, rfl⟩ := Option.map_eq_some_iff.1 hout
    have hopen := request_leavesOpen _ _ r.1 (Option.map_eq_some_iff.2 ⟨r, hr, rfl⟩)
    split
    · exact hopen
    · exact hopen
  · cases hout
    exact ⟨rfl, rfl, rfl⟩

theorem registerService_succeeds (cl : Client) (service : U32) (srvFd : Int) (params : U32) :
    Succeeds (cl.registerService resultsNet service srvFd params w) ↔
      w.1.sockname.isSome ∧ 0 ≤ w.1.write ∧ w.1.Replies msgRegServiceSize (Registered cl) := by
  have hname : resultsNet.getsockname srvFd w = (w.1.sockname, w) := rfl
  unfold registerService
  rw [hname]
  cases hs : w.1.sockname with
  | none => exact iff_of_false (not_succeeds_failed cl w) fun h => by cases h.1
  | some sockAddr =>
    simp only [Option.isSome_some, true_and]
    refine request_succeeds fun reply _ => ?_
    rw [checkRegister_nonneg, Int.natCast_inj]
    unfold Registered
    refine and_congr_right fun hlen => ?_
    rw [reply_whole (MsgRegService.length_toBytes _) hlen]

theorem registerService_leavesOpen (service : U32) (srvFd : Int) (params : U32) :
    LeavesOpen w.2 cl (cl.registerService resultsNet service srvFd params w) := by
  have hname : resultsNet.getsockname srvFd w = (w.1.sockname, w) := rfl
  intro out hout
  unfold registerService at hout
  rw [hname] at hout
  cases hs : w.1.sockname with
  | none =>
    rw [hs] at hout
    cases hout
    exact ⟨rfl, rfl, rfl⟩
  | some sockAddr =>
    rw [hs] at hout
    exact request_leavesOpen _ _ out hout

/-- A registration does not return if nothing is left to read. -/
theorem registerService_eq_none (cl : Client) (service : U32) (srvFd : Int) (params : U32) :
    cl.registerService resultsNet service srvFd params w = none ↔
      w.1.sockname.isSome ∧ 0 ≤ w.1.write ∧ w.1.reads = [] := by
  have hname : resultsNet.getsockname srvFd w = (w.1.sockname, w) := rfl
  unfold registerService
  rw [hname]
  cases hs : w.1.sockname with
  | none => simp
  | some sockAddr =>
    simp only [Option.map_eq_none_iff, request_results]
    by_cases hw : w.1.write < 0
    · rw [if_pos hw]
      exact iff_of_false (Option.some_ne_none _) fun h => absurd h.2.1 (Int.not_le.2 hw)
    · rw [if_neg hw]
      cases hr : w.1.reads with
      | nil => simp [Int.not_lt.1 hw]
      | cons x reads =>
        cases x with
        | none => simp
        | some bytes => simp

/-- A registration with its reply read. -/
theorem registerService_read (cl : Client) (service : U32) (srvFd : Int) (params : U32) {bytes : List Byte}
    {reads : List (Option (List Byte))} (hs : w.1.sockname.isSome) (hw : ¬ w.1.write < 0)
    (hr : w.1.reads = some bytes :: reads) :
    ∃ cl' ret, cl.registerService resultsNet service srvFd params w =
        some ⟨cl', ({ w.1 with reads := reads }, w.2), ret⟩ ∧
      (0 ≤ ret ↔ Registered cl (bytes.take msgRegServiceSize)) ∧
        (0 ≤ ret → ret = (MsgRegService.ofBytes (bytes.take msgRegServiceSize)).header.size.toInt) := by
  obtain ⟨sockAddr, hs⟩ := Option.isSome_iff_exists.1 hs
  have hname : resultsNet.getsockname srvFd w = (some sockAddr, w) := by
    rw [← hs]
    rfl
  let msg := (cl.serviceMsg resultsNet rcciMsgRegService service params sockAddr w).toBytes
  let reply := bytes.take msgRegServiceSize
  have hmsg : msg.length = msgRegServiceSize := MsgRegService.length_toBytes _
  have hcheck : 0 ≤ cl.checkRegister reply.length (reply ++ msg.drop reply.length) ↔ Registered cl reply := by
    rw [checkRegister_nonneg, Int.natCast_inj]
    unfold Registered
    refine and_congr_right fun hlen => ?_
    rw [reply_whole hmsg hlen]
  refine ⟨{ cl with returned := cl.returned ++ [(cl.checkRegister reply.length (reply ++ msg.drop reply.length),
    reply ++ msg.drop reply.length)] }, cl.checkRegister reply.length (reply ++ msg.drop reply.length), ?_, hcheck,
      fun h => ?_⟩
  · unfold registerService
    rw [hname]
    simp only [request_results, hr, if_neg hw, Option.map_some, MsgRegService.length_toBytes]
    rfl
  · obtain ⟨hlen, hack, hmagic, hver, htype, -⟩ := hcheck.1 h
    rw [reply_whole hmsg hlen, hlen]
    unfold checkRegister
    simp [hack, hmagic, hver, htype]
    rfl

/-- The reading of the log that is announced. -/
theorem readLog_succeeds (cl' : Client) (fullLog : Bool) (aStr : List Byte) {reply : List Byte} {ret : Int}
    (hret : 0 ≤ ret) (hsize : ret = (MsgRegService.ofBytes reply).header.size.toInt)
    {bytes : List Byte} {reads : List (Option (List Byte))} (hr : w.1.reads = some bytes :: reads)
    (hreg : cl.registerService resultsNet rcciClientFlagLog cl.mLogFd (if fullLog then 1 else 0) w =
      some ⟨cl', ({ w.1 with reads := reads }, w.2), ret⟩) :
    Succeeds ((cl.registerLog resultsNet fullLog aStr w).map Prod.fst) ↔ w.1.ReadsLog fullLog reply := by
  have hneg : ¬ ret < 0 := by omega
  have hrem : BitVec.ofInt 32 ret - BitVec.ofNat 32 msgRegServiceSize = announced reply := by
    rw [hsize, BitVec.ofInt_toInt]
    rfl
  unfold registerLog
  rw [hreg]
  simp only [Option.bind_some, if_neg hneg, hrem]
  unfold Results.ReadsLog
  rw [hr]
  by_cases hfull : fullLog = true ∧ 0 < announced reply
  · rw [if_pos hfull]
    by_cases hbytes : (announced reply).toInt < 0
    · rw [if_pos hbytes]
      exact iff_of_true succeeds_none fun _ _ h => by omega
    · rw [if_neg hbytes]
      have hlen : ((announced reply).toInt.toNat : Int) = (announced reply).toInt := by omega
      cases hlog : reads with
      | nil => exact iff_of_true succeeds_none fun _ _ _ x hx => by cases hx
      | cons x reads' =>
        cases x with
        | none =>
          have hne : (-1 : Int) ≠ (announced reply).toInt := by omega
          simp only [resultsNet, Option.map_some, if_pos hne]
          refine iff_of_false (not_succeeds_failed _ _) fun h => ?_
          obtain ⟨log, hcontra, -⟩ := h hfull.1 hfull.2 (by omega) none rfl
          cases hcontra
        | some log =>
          have hwhole : ((log.take (announced reply).toInt.toNat).length : Int) = (announced reply).toInt ↔
              (announced reply).toInt.toNat ≤ log.length := by
            rw [List.length_take]
            omega
          simp only [resultsNet, Option.map_some]
          by_cases hw : (announced reply).toInt.toNat ≤ log.length
          · rw [if_neg (not_not.2 (hwhole.2 hw))]
            refine iff_of_true ((succeeds_some _).2 (Int.le_refl 0)) fun _ _ _ x hx => ?_
            cases hx
            exact ⟨log, rfl, hw⟩
          · rw [if_pos (fun h => hw (hwhole.1 h))]
            refine iff_of_false (not_succeeds_failed _ _) fun h => ?_
            obtain ⟨log', hlog', hle⟩ := h hfull.1 hfull.2 (by omega) (some log) rfl
            cases hlog'
            exact hw hle
  · rw [if_neg hfull]
    exact iff_of_true ((succeeds_some _).2 (Int.le_refl 0)) fun h₁ h₂ => absurd ⟨h₁, h₂⟩ hfull

theorem registerLog_succeeds (fullLog : Bool) (aStr : List Byte) :
    Succeeds ((cl.registerLog resultsNet fullLog aStr w).map Prod.fst) ↔
      w.1.sockname.isSome ∧ 0 ≤ w.1.write ∧
        w.1.Replies msgRegServiceSize fun reply => Registered cl reply ∧ w.1.ReadsLog fullLog reply := by
  have hreg := cl.registerService_succeeds (w := w) rcciClientFlagLog cl.mLogFd (if fullLog then 1 else 0)
  have hnone := cl.registerService_eq_none (w := w) rcciClientFlagLog cl.mLogFd (if fullLog then 1 else 0)
  cases hcall : cl.registerService resultsNet rcciClientFlagLog cl.mLogFd (if fullLog then 1 else 0) w with
  | none =>
    obtain ⟨hs, hw, hreads⟩ := hnone.1 hcall
    unfold registerLog
    rw [hcall]
    exact iff_of_true succeeds_none ⟨hs, hw, replies_nil hreads⟩
  | some out =>
    rw [hcall, succeeds_some] at hreg
    by_cases hret : out.ret < 0
    · have hfails : (cl.registerLog resultsNet fullLog aStr w).map Prod.fst = some ⟨out.cl, out.w, -1⟩ := by
        unfold registerLog
        rw [hcall]
        simp only [Option.bind_some, if_pos hret, Option.map_some]
      rw [hfails]
      refine iff_of_false (not_succeeds_failed _ _) fun h => ?_
      have hgood := hreg.2 ⟨h.1, h.2.1, fun x hx => ?_⟩
      · omega
      · obtain ⟨bytes, rfl, hb, -⟩ := h.2.2 x hx
        exact ⟨bytes, rfl, hb⟩
    · obtain ⟨hs, hw, hreplies⟩ := hreg.1 (Int.not_lt.1 hret)
      cases hr : w.1.reads with
      | nil =>
        -- then it would not have returned
        rw [hnone.2 ⟨hs, hw, hr⟩] at hcall
        cases hcall
      | cons x reads =>
        obtain ⟨bytes, rfl, hb⟩ := hreplies x (by rw [hr]; rfl)
        obtain ⟨cl', ret, hsome, -, hsize⟩ := registerService_read cl rcciClientFlagLog cl.mLogFd
          (if fullLog then 1 else 0) hs (Int.not_lt.2 hw) hr
        rw [hcall, Option.some.injEq] at hsome
        have hret' : 0 ≤ ret := by
          rw [hsome] at hret
          exact Int.not_lt.1 hret
        rw [readLog_succeeds cl' fullLog aStr hret' (hsize hret') hr (hcall.trans (congrArg some hsome)), replies_some hr]
        constructor
        · intro h
          exact ⟨hs, hw, hb, h⟩
        · intro h
          exact h.2.2.2

theorem registerLog_leavesOpen (fullLog : Bool) (aStr : List Byte) :
    LeavesOpen w.2 cl ((cl.registerLog resultsNet fullLog aStr w).map Prod.fst) := by
  intro out hout
  obtain ⟨out', hout', rfl⟩ := Option.map_eq_some_iff.1 hout
  unfold registerLog at hout'
  obtain ⟨r, hr, hout'⟩ := Option.bind_eq_some_iff.1 hout'
  have hopen := registerService_leavesOpen _ _ _ r hr
  have hread (fd : Int) (n : Nat) (w : Attempt) : ∀ rd ∈ resultsNet.read fd n w, rd.2.2.2 = w.2 := by
    intro rd hrd
    unfold resultsNet at hrd
    simp only at hrd
    split at hrd
    · cases hrd
    · cases hrd
      rfl
    · cases hrd
      rfl
  simp only at hout'
  split at hout'
  · cases hout'
    exact hopen
  · split at hout'
    · split at hout'
      · cases hout'
      · obtain ⟨rd, hrd, rfl⟩ := Option.map_eq_some_iff.1 hout'
        have hrd := hread _ _ _ rd hrd
        split
        · exact ⟨hrd.trans hopen.1, hopen.2⟩
        · exact ⟨hrd.trans hopen.1, hopen.2⟩
    · cases hout'
      exact hopen

theorem serviceConnect_results (cl : Client) (port : Int) (r : Results) :
    cl.serviceConnect resultsNet port (r, []) =
      if port ≤ 0 ∨ r.socket < 0 then (none, r, [])
      else (if r.connect < 0 then none else some r.socket, r, [r.socket]) := by
  unfold serviceConnect resultsNet
  by_cases hp : port ≤ 0
  · simp [hp]
  · by_cases hs : r.socket < 0
    · simp [hp, hs]
    · by_cases hc : r.connect < 0 <;> simp [hp, hs, hc]

end Client

/-! ### Failures -/

namespace Connecting

variable {cl : Client} {r : Results}

/-- With its socket open a call is harmless only if it succeeds. -/
theorem unharmed_iff_succeeds {op : Connecting} {fd : Int} (h : ∀ out ∈ op.run cl (r, []), out.w.2 = [fd]) :
    op.Unharmed cl r ↔ Succeeds (op.run cl (r, [])) := by
  constructor
  · intro hun out hout
    by_contra hret
    have hnone := (hun out hout (Int.not_le.1 hret)).2
    rw [h out hout] at hnone
    cases hnone
  · intro hsucc out hout hret
    exact absurd (hsucc out hout) (Int.not_le.2 hret)

/-- Without a socket nothing is done. -/
theorem unharmed_of_unopened {op : Connecting} (h : op.run cl (r, []) = some ⟨cl, (r, []), -1⟩) : op.Unharmed cl r := by
  intro out hout _
  rw [h] at hout
  cases hout
  refine ⟨?_, rfl⟩
  cases op <;> rfl

theorem connect_run (cl : Client) (hostname : List Char) (port : Int) (hs : ¬ r.socket < 0) :
    (connect hostname port).run cl (r, []) =
      match r.host with
      | none => some ⟨{ cl with mServer := false }, (r, [r.socket]), -1⟩
      | some addr =>
        let cl := { cl with mServer := true, mServAddr := ⟨afInet, htons (BitVec.ofInt 16 port), addr, (0, 0)⟩ }
        if r.connect < 0 then some ⟨cl, (r, [r.socket]), -1⟩
        else { cl with mSockFd := r.socket, mPort := port }.sendInitMsg resultsNet (r, [r.socket]) := by
  unfold run Client.connect
  cases hh : r.host with
  | none => simp [resultsNet, hs, hh]
  | some addr =>
    by_cases hc : r.connect < 0
    · simp [resultsNet, hs, hh, hc]
    · simp [resultsNet, hs, hh, hc]

theorem connect_unharmed (hostname : List Char) (port : Int) :
    (connect hostname port).Unharmed cl r ↔ (connect hostname port).Settles cl r := by
  by_cases hs : r.socket < 0
  · refine iff_of_true (unharmed_of_unopened ?_) (Or.inl hs)
    unfold run Client.connect
    simp [resultsNet, hs]
  · have hrun := connect_run cl hostname port hs
    have hopen : ∀ out ∈ (connect hostname port).run cl (r, []), out.w.2 = [r.socket] := by
      intro out hout
      rw [hrun] at hout
      split at hout
      · cases hout
        rfl
      · split at hout
        · cases hout
          rfl
        · exact (Client.sendInitMsg_leavesOpen out hout).1
    rw [unharmed_iff_succeeds hopen, hrun]
    simp only [Settles]
    rw [or_iff_right hs]
    cases hh : r.host with
    | none => exact iff_of_false (not_succeeds_failed _ _) fun h => by cases h.1
    | some addr =>
      simp only [Option.isSome_some, true_and]
      by_cases hc : r.connect < 0
      · rw [if_pos hc]
        exact iff_of_false (not_succeeds_failed _ _) fun h => absurd h.1 (Int.not_le.2 hc)
      · rw [if_neg hc, Client.sendInitMsg_succeeds]
        simp [Client.isConnected, Int.not_lt.1 hc, and_assoc]

/-- What `logConnect` and `drvConnect` do alike: the socket is opened and connected, and then it is registered. -/
theorem service_unharmed {op : Connecting} {port : Int} {good : Prop}
    (hfails : ∀ w, cl.serviceConnect resultsNet port (r, []) = (none, w) → op.run cl (r, []) = some ⟨cl, w, -1⟩)
    (hopens : cl.serviceConnect resultsNet port (r, []) = (some r.socket, (r, [r.socket])) →
      (∀ out ∈ op.run cl (r, []), out.w.2 = [r.socket]) ∧ (0 ≤ r.socket → (Succeeds (op.run cl (r, [])) ↔ good))) :
    op.Unharmed cl r ↔ port ≤ 0 ∨ r.socket < 0 ∨ (0 ≤ r.connect ∧ good) := by
  have hconn := cl.serviceConnect_results port r
  rw [← or_assoc]
  by_cases hs : port ≤ 0 ∨ r.socket < 0
  · rw [if_pos hs] at hconn
    exact iff_of_true (unharmed_of_unopened (hfails _ hconn)) (Or.inl hs)
  · rw [if_neg hs] at hconn
    have hsock : 0 ≤ r.socket := Int.not_lt.1 fun h => hs (Or.inr h)
    rw [or_iff_right hs]
    by_cases hc : r.connect < 0
    · rw [if_pos hc] at hconn
      have hrun := hfails _ hconn
      have hopen : ∀ out ∈ op.run cl (r, []), out.w.2 = [r.socket] := by
        intro out hout
        rw [hrun] at hout
        cases hout
        rfl
      rw [unharmed_iff_succeeds hopen, hrun]
      exact iff_of_false (not_succeeds_failed _ _) fun h => absurd h.1 (Int.not_le.2 hc)
    · rw [if_neg hc] at hconn
      obtain ⟨hopen, hsucc⟩ := hopens hconn
      rw [unharmed_iff_succeeds hopen, hsucc hsock, and_iff_right (Int.not_lt.1 hc)]

theorem logConnect_unharmed (aStr : List Byte) (fullLog : Bool) :
    (logConnect aStr fullLog).Unharmed cl r ↔ (logConnect aStr fullLog).Settles cl r := by
  refine service_unharmed (fun w hconn => ?_) fun hconn => ?_
  · unfold run Client.logConnect
    rw [hconn]
    rfl
  · let cl' := { cl with mLogFd := r.socket }
    have hrun : (logConnect aStr fullLog).run cl (r, []) =
        (cl'.registerLog resultsNet fullLog aStr (r, [r.socket])).map fun x =>
          if x.1.ret < 0 then ⟨x.1.cl, x.1.w, -1⟩ else ⟨x.1.cl, x.1.w, x.1.cl.mLogFd⟩ := by
      unfold run Client.logConnect
      rw [hconn]
      simp only [Option.map_map]
      rfl
    have hleaves := cl'.registerLog_leavesOpen (w := (r, [r.socket])) fullLog aStr
    rw [hrun]
    refine ⟨fun out hout => ?_, fun hsock => ?_⟩
    · obtain ⟨x, hx, rfl⟩ := Option.map_eq_some_iff.1 hout
      have hx := (hleaves x.1 (Option.map_eq_some_iff.2 ⟨x, hx, rfl⟩)).1
      split
      · exact hx
      · exact hx
    · rw [Succeeds.congr (g := Prod.fst), Client.registerLog_succeeds]
      · exact Iff.rfl
      · intro x hx
        have hfd := (hleaves x.1 (Option.map_eq_some_iff.2 ⟨x, hx, rfl⟩)).2.1
        by_cases hret : x.1.ret < 0
        · rw [if_pos hret]
          simp only
          omega
        · rw [if_neg hret, hfd]
          exact iff_of_true hsock (Int.not_lt.1 hret)

theorem drvConnect_unharmed : drvConnect.Unharmed cl r ↔ drvConnect.Settles cl r := by
  refine service_unharmed (fun w hconn => ?_) fun hconn => ?_
  · unfold run Client.drvConnect
    rw [hconn]
  · let cl' := { cl with mDrvFd := r.socket }
    have hrun : drvConnect.run cl (r, []) =
        (cl'.registerService resultsNet rcciClientFlagDrive r.socket 0 (r, [r.socket])).map fun x =>
          if x.ret < 0 then ⟨x.cl, x.w, -1⟩ else ⟨x.cl, x.w, x.cl.mDrvFd⟩ := by
      unfold run Client.drvConnect
      rw [hconn]
    have hleaves := cl'.registerService_leavesOpen (w := (r, [r.socket])) rcciClientFlagDrive r.socket 0
    rw [hrun]
    refine ⟨fun out hout => ?_, fun hsock => ?_⟩
    · obtain ⟨x, hx, rfl⟩ := Option.map_eq_some_iff.1 hout
      have hx := (hleaves x hx).1
      split
      · exact hx
      · exact hx
    · rw [Succeeds.congr (g := id), Option.map_id, id, Client.registerService_succeeds]
      · exact Iff.rfl
      · intro x hx
        have hfd := (hleaves x hx).2.2
        by_cases hret : x.ret < 0
        · rw [if_pos hret]
          simp only [id]
          omega
        · rw [if_neg hret, hfd]
          exact iff_of_true hsock (Int.not_lt.1 hret)

/-- A call that fails leaves no trace exactly if it has not opened its socket. -/
theorem unharmed_iff_settles (cl : Client) (r : Results) (op : Connecting) : op.Unharmed cl r ↔ op.Settles cl r := by
  cases op with
  | connect hostname port => exact connect_unharmed hostname port
  | logConnect aStr fullLog => exact logConnect_unharmed aStr fullLog
  | drvConnect => exact drvConnect_unharmed

/-- The server answers the init message with a refusal. -/
def refused : Results where
  socket := 5
  host := some 0x0100007F
  connect := 0
  sockname := none
  write := 28
  reads := [some (MsgInit.toBytes ⟨⟨0xbaba, 0x100, rcciMsgInit, BitVec.ofNat 32 msgInitSize, 0⟩, rcciStatusNack, 0, 0⟩)]
  stack := []
  heap := []

/-- `connect` returns -1, its socket is open, and the client says that it is connected. -/
theorem not_unharmed_refused : ∃ cl out, (connect [] 1025).run cl (refused, []) = some out ∧ out.ret = -1 ∧
    cl.isConnected = false ∧ out.cl.isConnected = true ∧ out.w.2 = [5] ∧ ¬ (connect [] 1025).Unharmed cl refused := by
  have hrun : ((connect [] 1025).run (.new ⟨0, 0, 0, (0, 0)⟩) (refused, [])).map
      (fun out => (out.ret, out.cl.isConnected, out.w.2)) = some (-1, true, [5]) := by decide
  obtain ⟨out, hout, hres⟩ := Option.map_eq_some_iff.1 hrun
  simp only [Prod.mk.injEq] at hres
  obtain ⟨hret, hconn, hopen⟩ := hres
  refine ⟨.new ⟨0, 0, 0, (0, 0)⟩, out, hout, hret, rfl, hconn, hopen, fun h => ?_⟩
  have hnone := (h out hout (by omega)).2
  rw [hopen] at hnone
  cases hnone

end Connecting

end RcCarControl.Interface
