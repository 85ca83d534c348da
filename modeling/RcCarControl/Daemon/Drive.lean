import RcCarControl.Daemon.Requests

/-!
# Drive commands

`driveReadThread` runs from the start of the server, and for a datagram of full size it compares the sender with
`clients[0]` without asking whether there is a client.  As the drive service has room for one client, its list is the
holder of the service, which the messages alone determine (`noteHolder`): the first registration while nobody holds it,
until an unregister message names the same address.  A datagram is checked as it should be exactly if there is a holder
(`driveChecked_iff_held`), and then only the holder's datagrams reach the callback.
-/

namespace RcCarControl.Daemon

open Interface LittleEndian Lts

/-! ### The holder of the drive service -/

/-- The holder changes with the drive service's register and unregister messages only. -/
def noteHolder (srv : Server) (e : Event) (holder : Option SockaddrIn) : Option SockaddrIn :=
  match srv.incoming e with
  | some (_, .register .drive a) => if srv.running .drive then holder.or (some a) else holder
  | some (_, .unregister .drive a) => if holder = some a then none else holder
  | _ => holder

/-- The server with the holder of its drive service. -/
abbrev DriveState := Server × Option SockaddrIn

def DriveState.step : DriveState → Event → Option DriveState := withGhost Server.step noteHolder

structure DriveInv (s : DriveState) : Prop where
  clients : s.1.clients .drive = s.2.toList
  maxClients : (s.1.mServices .drive).maxClients = 1
  driveCb : s.1.mDriveCbFunc = true

theorem DriveInv.congr {srv srv' : Server} (h : SameTables srv srv') {holder : Option SockaddrIn}
    (hi : DriveInv (srv, holder)) : DriveInv (srv', holder) :=
  ⟨(h.clients .drive).trans hi.clients, by rw [h.2.1]; exact hi.maxClients, h.2.2.trans hi.driveCb⟩

/-- The service has room while nobody holds it. -/
theorem DriveInv.canAddClient {srv : Server} {holder : Option SockaddrIn} (hi : DriveInv (srv, holder)) :
    (srv.mServices .drive).canAddClient = holder.isNone := by
  have hcl : (srv.mServices .drive).clients = holder.toList := hi.clients
  have hmax : (srv.mServices .drive).maxClients = 1 := hi.maxClients
  unfold Service.canAddClient
  rw [hcl, hmax]
  cases holder <;> rfl

theorem DriveInv.register {srv : Server} {holder : Option SockaddrIn} (hi : DriveInv (srv, holder)) (i : Nat)
    (c : ClientInfo) (s : ServiceId) (a : SockaddrIn) :
    DriveInv (srv.handle i c (.register s a),
      if s = .drive then if srv.running .drive then holder.or (some a) else holder else holder) := by
  have hpush : (srv.handle i c (.register s a)).clients .drive =
      if srv.admits s ∧ s = .drive then srv.clients .drive ++ [a] else srv.clients .drive := by
    unfold Server.handle
    by_cases hs : s = .drive
    · subst hs
      by_cases ha : srv.admits .drive = true
      · simpa [ha] using srv.clients_pushClient .drive .drive a
      · simp [ha]
    · by_cases ha : srv.admits s = true
      · simpa [ha, hs, Ne.symm hs] using srv.clients_pushClient s .drive a
      · simp [ha]
  have hmax : ((srv.handle i c (.register s a)).mServices .drive).maxClients = (srv.mServices .drive).maxClients := by
    unfold Server.handle
    simp only
    split
    · exact srv.maxClients_pushClient s .drive a
    · rfl
  refine ⟨?_, hmax.trans hi.maxClients, ?_⟩
  · rw [hpush, hi.clients]
    unfold Server.admits
    by_cases hs : s = .drive
    · subst hs
      rw [hi.canAddClient]
      by_cases hr : srv.running .drive = true <;> cases holder <;> simp [hr]
    · simp [hs]
  · unfold Server.handle
    simp only
    split <;> exact hi.driveCb

theorem DriveInv.unregister {srv : Server} {holder : Option SockaddrIn} (hi : DriveInv (srv, holder)) (i : Nat)
    (c : ClientInfo) (s : ServiceId) (a : SockaddrIn) :
    DriveInv (srv.handle i c (.unregister s a),
      if s = .drive then if holder = some a then none else holder else holder) := by
  refine ⟨?_, (srv.maxClients_eraseClient s .drive a).trans hi.maxClients, hi.driveCb⟩
  have herase : (srv.handle i c (.unregister s a)).clients .drive =
      if .drive = s then (srv.clients s).erase a else srv.clients .drive := srv.clients_eraseClient s .drive a
  rw [herase]
  by_cases hs : s = .drive
  · subst hs
    simp only [if_true, hi.clients]
    cases holder with
    | none => rfl
    | some b =>
      by_cases hb : b = a
      · simp [hb]
      · simp [hb]
  · simp only [if_neg hs, if_neg (Ne.symm hs)]
    exact hi.clients

/-- Every step keeps the list of the drive service at its holder. -/
theorem DriveInv.step {s t : DriveState} {e : Event} (hi : DriveInv s) (h : DriveState.step s e = some t) :
    DriveInv t := by
  obtain ⟨srv, holder⟩ := s
  obtain ⟨srv', holder'⟩ := t
  obtain ⟨h, rfl⟩ := withGhost_eq_some.1 h
  unfold noteHolder
  rcases Server.step_cases h with ⟨fd, hin, -, ht⟩ | ⟨i, c, r, hin, hc, ht⟩ | ⟨hin, ht⟩
  · rw [hin]
    exact DriveInv.congr ht ⟨hi.clients, hi.maxClients, hi.driveCb⟩
  · rw [hin]
    apply DriveInv.congr ht
    cases r with
    | none => exact hi
    | eof =>
      have hs : (srv.removeClient i c).mServices = srv.mServices := srv.mServices_removeClient i c
      refine ⟨?_, by rw [Server.handle, hs]; exact hi.maxClients, ?_⟩
      · unfold Server.clients
        rw [Server.handle, hs]
        exact hi.clients
      · rw [Server.handle, Server.removeClient]
        split <;> exact hi.driveCb
    | init => exact ⟨hi.clients, hi.maxClients, hi.driveCb⟩
    | register s a =>
      have hr := hi.register i c s a
      cases s <;> exact hr
    | unregister s a =>
      have hu := hi.unregister i c s a
      cases s <;> exact hu
  · rw [hin]
    exact DriveInv.congr ht hi

theorem driveInv_started (env : OpenEnv) : DriveInv (started env, none) :=
  ⟨(fresh_started env).clients .drive, (fresh_started env).maxClients .drive, (fresh_started env).driveCb⟩

/-! ### Datagrams -/

/-- For a datagram that `recvfrom` returns in full size the client compared with exists, and the callback is called on it
exactly if the sender is the first client; whatever reaches the callback comes from the holder. -/
def DriveChecked (s : DriveState) : Event → Prop
  | .datagram sockAddr bytes =>
    (msgDrvCtrlSize ≤ bytes.length →
      (driveRead s.1 sockAddr bytes).2 ≠ .outOfBounds ∧
        ((driveRead s.1 sockAddr bytes).2 = .called (MsgDrvCtrl.ofBytes (bytes.take msgDrvCtrlSize)) ↔
          (s.1.clients .drive).head? = some sockAddr)) ∧
      ∀ drvData, (driveRead s.1 sockAddr bytes).2 = .called drvData → s.2 = some sockAddr
  | _ => True

/-- Somebody holds the drive service when a datagram of full size arrives. -/
def HeldAtDatagram (s : DriveState) : Event → Prop
  | .datagram _ bytes => msgDrvCtrlSize ≤ bytes.length → s.2.isSome
  | _ => True

theorem driveRead_full {srv : Server} {holder : Option SockaddrIn} (hi : DriveInv (srv, holder)) (sockAddr : SockaddrIn)
    {bytes : List Byte} (hl : msgDrvCtrlSize ≤ bytes.length) :
    (driveRead srv sockAddr bytes).2 =
      match holder with
      | none => .outOfBounds
      | some a =>
        if sockAddr = a then .called (MsgDrvCtrl.ofBytes (bytes.take msgDrvCtrlSize)) else .unknownSource := by
  have hcl : srv.clients .drive = holder.toList := hi.clients
  have hcb : srv.mDriveCbFunc = true := hi.driveCb
  have htake : (bytes.take msgDrvCtrlSize).length = msgDrvCtrlSize := by
    rw [List.length_take]
    omega
  unfold driveRead
  simp only [hcb, htake, hcl, and_self, if_true]
  cases holder with
  | none => rfl
  | some a =>
    simp only [Option.toList_some]
    split_ifs <;> rfl

theorem driveRead_short {srv : Server} (sockAddr : SockaddrIn) {bytes : List Byte} (hl : ¬ msgDrvCtrlSize ≤ bytes.length) :
    (driveRead srv sockAddr bytes).2 = .wrongSize := by
  have htake : (bytes.take msgDrvCtrlSize).length ≠ msgDrvCtrlSize := by
    rw [List.length_take]
    omega
  unfold driveRead
  simp only [htake, and_false, if_false]

/-- A datagram is checked exactly if there is a holder. -/
theorem driveChecked_iff {s : DriveState} (hi : DriveInv s) (e : Event) : DriveChecked s e ↔ HeldAtDatagram s e := by
  obtain ⟨srv, holder⟩ := s
  cases e with
  | accept fd resolved name => exact Iff.rfl
  | process i w => exact Iff.rfl
  | datagram sockAddr bytes =>
    unfold DriveChecked HeldAtDatagram
    by_cases hl : msgDrvCtrlSize ≤ bytes.length
    · have hcl : srv.clients .drive = holder.toList := hi.clients
      simp only [driveRead_full hi sockAddr hl, hcl]
      cases holder with
      | none => simp [hl]
      | some a =>
        by_cases ha : sockAddr = a
        · simp [ha]
        · simp [ha, Ne.symm ha]
    · simp [driveRead_short sockAddr hl, hl]

/-- In a run all datagrams are checked exactly if each of full size finds a holder. -/
theorem driveChecked_iff_held (env : OpenEnv) (es : List Event) :
    StepsMeet DriveState.step DriveChecked (started env, none) es ↔
      StepsMeet DriveState.step HeldAtDatagram (started env, none) es :=
  stepsMeet_congr (fun _ _ _ (hi : DriveInv _) ht => hi.step ht) (fun _ e hi => driveChecked_iff hi e)
    (driveInv_started env) es

/-- A datagram that is there before the first client. -/
def earlyDatagram : List Event := [.datagram someClient (List.replicate msgDrvCtrlSize 0)]

theorem not_driveChecked_early : (Server.new.setDriveDataCb.openServer openEnv).2 = 0 ∧
    (exec DriveState.step (started openEnv, none) earlyDatagram).isSome ∧
      (driveRead (started openEnv) someClient (List.replicate msgDrvCtrlSize 0)).2 = .outOfBounds ∧
        ¬ StepsMeet DriveState.step DriveChecked (started openEnv, none) earlyDatagram := by
  have hout : (driveRead (started openEnv) someClient (List.replicate msgDrvCtrlSize 0)).2 = .outOfBounds := by decide
  refine ⟨by decide, by decide, hout, fun h => ?_⟩
  exact (h.1.1 (by decide)).1 hout

end RcCarControl.Daemon
