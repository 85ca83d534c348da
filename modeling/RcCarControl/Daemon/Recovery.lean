import RcCarControl.Daemon.Rejection

/-!
# Recovery from a rejected message

A rejection consumes the 16 bytes of the header, whatever `header.size` says, so the rest of the message is parsed as
headers again: the next message is found only if the rest is made of further headers that are rejected (`skip`).  What may
be left of a rejected message besides depends on whether the connection is initialized.
-/

namespace RcCarControl.Daemon

open Interface LittleEndian

/-- The headers that are rejected one after the other, and what follows them. -/
def skip (c : ClientInfo) : Nat → List Byte → List MsgHeader × List Byte
  | 0, bytes => ([], bytes)
  | fuel + 1, bytes =>
    let header := MsgHeader.ofBytes (bytes.take msgHeaderSize)
    if msgHeaderSize ≤ bytes.length ∧ rejects c header then
      let r := skip c fuel (bytes.drop msgHeaderSize)
      (header :: r.1, r.2)
    else ([], bytes)

/-- A message as long as its header says that the server rejects. -/
structure Rejected (c : ClientInfo) (m : List Byte) : Prop where
  whole : msgHeaderSize ≤ m.length
  size : (MsgHeader.ofBytes m).size.toNat = m.length
  rejected : rejects c (MsgHeader.ofBytes (m.take msgHeaderSize)) = true

/-- A message of this kind with its size in the header. -/
structure Complete (k : MsgKind) (m : List Byte) : Prop where
  message : IsMessage k m
  size : (MsgHeader.ofBytes m).size.toNat = m.length

/-- The bytes begin as an init message does. -/
def BeginsInit (p : List Byte) : Prop := 8 ≤ p.length ∧ MsgKind.init.expected.accepts (MsgHeader.ofBytes p) = true

instance (p : List Byte) : Decidable (BeginsInit p) := inferInstanceAs (Decidable (_ ∧ _))

/-- The bytes break an init message that follows them, and nothing is taken for one. -/
def Swallows (v : List Byte) : Prop := v ≠ [] ∧ v.length < msgHeaderSize ∧ ¬ BeginsInit v

instance (v : List Byte) : Decidable (Swallows v) := inferInstanceAs (Decidable (_ ∧ _ ∧ _))

/-- The connection after an init message. -/
def ClientInfo.initialized (c : ClientInfo) : ClientInfo := { c with flags := c.flags ||| rcciClientFlagInit }

/-- Before the init message: what is left of the rejected message is nothing, or together with an init message that
follows it, it is an init message and something that nobody answers. -/
def LeavesInit (c : ClientInfo) (m : List Byte) : Prop :=
  let rest := (skip c m.length m).2
  rest = [] ∨ BeginsInit rest ∧ (rest.length < msgInitSize ∨
    Swallows (skip c.initialized m.length (rest.drop msgInitSize)).2)

instance (c : ClientInfo) (m : List Byte) : Decidable (LeavesInit c m) := inferInstanceAs (Decidable (_ ∨ _ ∧ (_ ∨ _)))

/-- After the init message: nothing is left, and no rejection appears in a log that may be asked for. -/
def LeavesNothing (srv : Server) (c : ClientInfo) (m : List Byte) : Prop :=
  (skip c m.length m).2 = [] ∧
    (srv.running .logging = false ∨ ∀ header ∈ (skip c m.length m).1, headerKind c header = none)

instance (srv : Server) (c : ClientInfo) (m : List Byte) : Decidable (LeavesNothing srv c m) :=
  inferInstanceAs (Decidable (_ ∧ (_ ∨ _)))

/-- The rejected message goes unnoticed. -/
def Recovers (srv : Server) (c : ClientInfo) (m : List Byte) : Prop :=
  if c.flags &&& rcciClientFlagInit = 0 then LeavesInit c m else LeavesNothing srv c m

instance (srv : Server) (c : ClientInfo) (m : List Byte) : Decidable (Recovers srv c m) :=
  inferInstanceAs (Decidable (if c.flags &&& rcciClientFlagInit = 0 then LeavesInit c m else LeavesNothing srv c m))

/-! ### Headers in a stream -/

/-- The checks of a header look at its first eight bytes. -/
theorem ofBytes_take {p : List Byte} {n : Nat} (h : 8 ≤ n) :
    (MsgHeader.ofBytes (p.take n)).magic = (MsgHeader.ofBytes p).magic ∧
      (MsgHeader.ofBytes (p.take n)).ver = (MsgHeader.ofBytes p).ver ∧
        (MsgHeader.ofBytes (p.take n)).type = (MsgHeader.ofBytes p).type := by
  have hget (j : Nat) (hj : j < 8) : (p.take n).getD j 0 = p.getD j 0 := by
    have hjn : j < n := by omega
    simp [List.getD_eq_getElem?_getD, hjn]
  simp only [MsgHeader.ofBytes, u16, u32]
  refine ⟨?_, ?_, ?_⟩
  · rw [hget 1 (by omega), hget 0 (by omega)]
  · rw [hget 3 (by omega), hget 2 (by omega)]
  · rw [hget 7 (by omega), hget 6 (by omega), hget 5 (by omega), hget 4 (by omega)]

/-- Bytes that agree in front have the same kind of header. -/
theorem header_congr {p q : List Byte} (h : p.take 8 = q.take 8) :
    (∀ x : Expected, x.accepts (MsgHeader.ofBytes p) = x.accepts (MsgHeader.ofBytes q)) ∧
      ∀ c, headerKind c (MsgHeader.ofBytes p) = headerKind c (MsgHeader.ofBytes q) := by
  obtain ⟨hmagic, hver, htype⟩ := ofBytes_take (p := p) (Nat.le_refl 8)
  obtain ⟨hmagic', hver', htype'⟩ := ofBytes_take (p := q) (Nat.le_refl 8)
  rw [h] at hmagic hver htype
  constructor
  · intro x
    unfold Expected.accepts
    rw [← hmagic, ← hver, ← htype, hmagic', hver', htype']
  · intro c
    unfold headerKind
    rw [← htype, htype']

theorem take_header (p : List Byte) : (p.take msgHeaderSize).take 8 = p.take 8 := by
  rw [List.take_take]
  rfl

theorem take_append_header {t : List Byte} (ht : 8 ≤ t.length) (y : List Byte) :
    ((t ++ y).take msgHeaderSize).take 8 = t.take 8 := by
  rw [take_header, List.take_append_of_le_length ht]

/-- The first byte of an init message is none of the seven that follow it. -/
theorem accepts_init_getD {p : List Byte} (h : MsgKind.init.expected.accepts (MsgHeader.ofBytes p) = true) :
    p.getD 0 0 = 0xEF ∧ ∀ j, 0 < j → j < 8 → p.getD j 0 ≠ 0xEF := by
  simp only [Expected.accepts, MsgKind.expected, Bool.and_eq_true, beq_iff_eq] at h
  obtain ⟨⟨htype, hmagic⟩, hver⟩ := h
  have hm : bytes16 (u16 p 0) = [0xEF, 0xBE] := by
    rw [show u16 p 0 = rcciMsgInitMagic from hmagic]
    decide
  have hv : bytes16 (u16 p 2) = [0xAD, 0xDE] := by
    rw [show u16 p 2 = rcciMsgInitVer from hver]
    decide
  have ht : bytes32 (u32 p 4) = [0, 0, 0, 0] := by
    rw [show u32 p 4 = rcciMsgInit from htype]
    decide
  rw [bytes16_u16] at hm hv
  rw [bytes32_u32] at ht
  simp only [Nat.reduceAdd, List.cons.injEq, and_true] at hm hv ht
  refine ⟨hm.1, ?_⟩
  intro j hpos hj
  have hcases : j = 1 ∨ j = 2 ∨ j = 3 ∨ j = 4 ∨ j = 5 ∨ j = 6 ∨ j = 7 := by omega
  rcases hcases with rfl | rfl | rfl | rfl | rfl | rfl | rfl
  · rw [hm.2]
    decide
  · rw [hv.1]
    decide
  · rw [hv.2]
    decide
  · rw [ht.1]
    decide
  · rw [ht.2.1]
    decide
  · rw [ht.2.2.1]
    decide
  · rw [ht.2.2.2]
    decide

/-- An init message behind one to fifteen bytes is taken for one only if these begin like one. -/
theorem beginsInit_of_accepts {v m : List Byte} (hne : v ≠ []) (hm : IsMessage .init m)
    (h : MsgKind.init.expected.accepts (MsgHeader.ofBytes ((v ++ m).take msgHeaderSize)) = true) : BeginsInit v := by
  have hpos : 0 < v.length := List.length_pos_iff.2 hne
  by_cases hlen : 8 ≤ v.length
  · refine ⟨hlen, ?_⟩
    rwa [← (header_congr (take_append_header hlen m)).1]
  · -- the first byte of `m` would stand where a header has none like it
    exfalso
    have hmlen := hm.1
    have h0 : m.getD 0 0 = 0xEF := by
      have hacc := hm.2
      rw [(header_congr (take_header m)).1] at hacc
      exact (accepts_init_getD hacc).1
    have hother := (accepts_init_getD h).2 v.length hpos (by omega)
    have hv : v.length < msgHeaderSize := by
      unfold msgHeaderSize
      omega
    apply hother
    rw [← h0]
    simp [List.getD_eq_getElem?_getD, hv, List.getElem?_append_right]

/-! ### What is left of a rejected message -/

/-- Bytes that swallow an init message. -/
theorem leads_swallowed {crc : U32} {srv : Server} {i : Nat} {c : ClientInfo} {v m : List Byte}
    (hc : srv.mConnClients[i]? = some c) (hv : Swallows v) (hm : IsMessage .init m) : Leads crc srv i (v ++ m) srv.silent := by
  obtain ⟨hne, hshort, hnot⟩ := hv
  have hlen : (v ++ m).length = v.length + msgInitSize := by
    rw [List.length_append, hm.1]
    rfl
  rcases stream_cases srv hc (v ++ m) with hlt | ⟨hle, hrej⟩ | ⟨k, hle, hk, hacc, -⟩
  · exact leads_short hc hlt
  · have hsame := reject_tables srv c (MsgHeader.ofBytes ((v ++ m).take msgHeaderSize))
    have hrest : ((v ++ m).drop msgHeaderSize).length < msgInitSize := by
      rw [List.length_drop]
      omega
    rw [← hsame.silent]
    exact leads_rejected hc hle hrej (leads_few (hsame.1 ▸ hc) hrest)
  · have hsize : k.expected.size = msgRegServiceSize := by
      cases k with
      | init => exact absurd (beginsInit_of_accepts hne hm hacc) hnot
      | regService => rfl
      | unregService => rfl
    refine leads_cut hc hle hk hacc ?_
    rw [hlen, hsize]
    unfold msgHeaderSize at hshort
    unfold msgInitSize msgRegServiceSize
    omega

theorem skip_rejected {c : ClientInfo} {m : List Byte} (fuel : Nat) (hlen : msgHeaderSize ≤ m.length)
    (hrej : rejects c (MsgHeader.ofBytes (m.take msgHeaderSize)) = true) :
    skip c (fuel + 1) m = (MsgHeader.ofBytes (m.take msgHeaderSize) :: (skip c fuel (m.drop msgHeaderSize)).1,
      (skip c fuel (m.drop msgHeaderSize)).2) := by
  simp [skip, hlen, hrej]

theorem skip_stop {c : ClientInfo} {m : List Byte} (fuel : Nat)
    (h : ¬ (msgHeaderSize ≤ m.length ∧ rejects c (MsgHeader.ofBytes (m.take msgHeaderSize)) = true)) :
    skip c (fuel + 1) m = ([], m) := by
  simp only [skip, if_neg h]

theorem skip_nil (c : ClientInfo) (fuel : Nat) : skip c fuel [] = ([], []) := by
  cases fuel with
  | zero => rfl
  | succ fuel =>
    rw [skip_stop fuel]
    rintro ⟨hlen, -⟩
    exact absurd hlen (by decide)

/-- The rejected headers have no effect but in the log. -/
theorem leads_skip {crc : U32} {i : Nat} {c : ClientInfo} {o : Outcome} {x : List Byte} (fuel : Nat) {srv : Server}
    {m : List Byte} (hc : srv.mConnClients[i]? = some c)
    (h : Leads crc (srv.rejectAll c (skip c fuel m).1) i ((skip c fuel m).2 ++ x) o) : Leads crc srv i (m ++ x) o := by
  induction fuel generalizing srv m with
  | zero => exact h
  | succ fuel ih =>
    by_cases hhead : msgHeaderSize ≤ m.length ∧ rejects c (MsgHeader.ofBytes (m.take msgHeaderSize)) = true
    · obtain ⟨hlen, hrej⟩ := hhead
      rw [skip_rejected fuel hlen hrej] at h
      have hle : msgHeaderSize ≤ (m ++ x).length := by
        rw [List.length_append]
        omega
      have htake : (m ++ x).take msgHeaderSize = m.take msgHeaderSize := List.take_append_of_le_length hlen
      have hdrop : (m ++ x).drop msgHeaderSize = m.drop msgHeaderSize ++ x := List.drop_append_of_le_length hlen
      have hsame := reject_tables srv c (MsgHeader.ofBytes (m.take msgHeaderSize))
      refine leads_rejected hc hle (by rwa [htake]) ?_
      rw [htake, hdrop]
      exact ih (hsame.1 ▸ hc) h
    · rw [skip_stop fuel hhead] at h
      exact h

theorem length_skip_le (c : ClientInfo) (fuel : Nat) (m : List Byte) : (skip c fuel m).2.length ≤ m.length := by
  induction fuel generalizing m with
  | zero => exact Nat.le_refl _
  | succ fuel ih =>
    by_cases hhead : msgHeaderSize ≤ m.length ∧ rejects c (MsgHeader.ofBytes (m.take msgHeaderSize)) = true
    · rw [skip_rejected fuel hhead.1 hhead.2]
      have hrest := ih (m.drop msgHeaderSize)
      rw [List.length_drop] at hrest
      exact Nat.le_trans hrest (Nat.sub_le _ _)
    · rw [skip_stop fuel hhead]

/-- What is left is no whole header, or one that is accepted. -/
theorem skip_rest (srv : Server) {i : Nat} {c : ClientInfo} (hc : srv.mConnClients[i]? = some c) (fuel : Nat)
    {m : List Byte} (hf : m.length ≤ fuel) :
    (skip c fuel m).2.length < msgHeaderSize ∨
      ∃ k : MsgKind, msgHeaderSize ≤ (skip c fuel m).2.length ∧
        k.expected.accepts (MsgHeader.ofBytes ((skip c fuel m).2.take msgHeaderSize)) = true ∧
        (k = .init ∨ Initialized srv i) := by
  induction fuel generalizing m with
  | zero =>
    have hnil : m = [] := List.length_eq_zero_iff.1 (Nat.le_zero.1 hf)
    left
    subst hnil
    exact (by decide : 0 < msgHeaderSize)
  | succ fuel ih =>
    rcases stream_cases srv hc m with hlen | ⟨hlen, hrej⟩ | ⟨k, hlen, hk, hacc, hinit⟩
    · rw [skip_stop fuel fun h => absurd h.1 (Nat.not_le.2 hlen)]
      exact .inl hlen
    · rw [skip_rejected fuel hlen hrej]
      refine ih ?_
      rw [List.length_drop]
      unfold msgHeaderSize
      omega
    · have hnot : rejects c (MsgHeader.ofBytes (m.take msgHeaderSize)) = false := by simp [rejects, hk, hacc]
      rw [skip_stop fuel fun h => by simp [hnot] at h]
      exact .inr ⟨k, hlen, hacc, hinit⟩

/-! ### The next message -/

section Next

variable {crc : U32} {srv : Server} {i : Nat} {c : ClientInfo} {m m' : List Byte} {k : MsgKind}

/-- The outcome of a message alone. -/
theorem outcome_message (hc : srv.mConnClients[i]? = some c) (hm : IsMessage k m') (hk : k = .init ∨ Initialized srv i) :
    outcome unsegmented (fun _ => crc) srv i [m'] =
      (reply crc srv i c k m').1.silent.after (reply crc srv i c k m').2 := by
  refine Leads.outcome_eq ?_
  rw [List.flatten_singleton]
  exact leads_message hc hm hk

/-- The outcome of a message behind a rejected one. -/
theorem outcome_behind {o : Outcome} (hc : srv.mConnClients[i]? = some c)
    (h : Leads crc (srv.rejectAll c (skip c m.length m).1) i ((skip c m.length m).2 ++ m') o) :
    outcome unsegmented (fun _ => crc) srv i [m, m'] = o := by
  refine Leads.outcome_eq ?_
  rw [List.flatten_cons, List.flatten_singleton]
  exact leads_skip m.length hc h

theorem initialized_rejectAll (headers : List MsgHeader) : Initialized (srv.rejectAll c headers) i ↔ Initialized srv i := by
  unfold Initialized
  rw [(rejectAll_tables srv c headers).1]

/-- The outcome of a message behind a rejected one of which nothing is left. -/
theorem outcome_behind_nothing (hc : srv.mConnClients[i]? = some c) (hm : IsMessage k m')
    (hk : k = .init ∨ Initialized srv i) (hrest : (skip c m.length m).2 = []) :
    outcome unsegmented (fun _ => crc) srv i [m, m'] =
      (reply crc (srv.rejectAll c (skip c m.length m).1) i c k m').1.silent.after
        (reply crc (srv.rejectAll c (skip c m.length m).1) i c k m').2 := by
  apply outcome_behind hc
  rw [hrest]
  apply leads_message _ hm (hk.imp_right (initialized_rejectAll _).2)
  rw [(rejectAll_tables srv c _).1]
  exact hc

/-- The init message is answered in the same way whatever the log is. -/
theorem reply_init_congr {srv' : Server} (h : SameTables srv srv') :
    (reply crc srv' i c .init m').2 = (reply crc srv i c .init m').2 ∧
      SameTables (reply crc srv i c .init m').1 (reply crc srv' i c .init m').1 := by
  obtain ⟨hconns, hservices, hcb⟩ := h
  rw [reply_init, reply_init, hservices]
  refine ⟨rfl, ?_, hservices, hcb⟩
  simp only [Server.orFlags, hconns]

theorem reply_unreg : reply crc srv i c .unregService m' =
    ((unregService srv (receivedReg (m'.drop msgHeaderSize) crc)).1,
      [(unregService srv (receivedReg (m'.drop msgHeaderSize) crc)).2.toBytes]) := rfl

theorem reply_reg : reply crc srv i c .regService m' =
    ((regService srv i (receivedReg (m'.drop msgHeaderSize) crc)).1,
      (regService srv i (receivedReg (m'.drop msgHeaderSize) crc)).2.toBytes ::
        if (regService srv i (receivedReg (m'.drop msgHeaderSize) crc)).2.service = rcciClientFlagLog ∧
            (regService srv i (receivedReg (m'.drop msgHeaderSize) crc)).1.running .logging ∧
            (regService srv i (receivedReg (m'.drop msgHeaderSize) crc)).2.params ≠ 0 ∧ 0 < srv.mLog.length ∧
            (regService srv i (receivedReg (m'.drop msgHeaderSize) crc)).2.status = rcciStatusAck then
          [textBytes srv.mLog]
        else []) := by
  have hwrite (bytes : List Byte) (w : Stream) : (streamSock unsegmented fun _ => crc).write c.fd bytes w =
      ((bytes.length : Int), { w with sent := w.sent ++ [bytes] }) := rfl
  have hcrc (w : Stream) : (streamSock unsegmented fun _ => crc).crc w = crc := rfl
  simp only [reply, answer, answerReg, hwrite, hcrc, MsgRegService.length_toBytes, textBytes, List.length_map, if_true]
  split_ifs <;> rfl

section Congr

variable {srv' : Server} (h : SameTables srv srv')
include h

theorem unregService_congr (msg : MsgRegService) :
    (unregService srv' msg).2 = (unregService srv msg).2 ∧
      SameTables (unregService srv msg).1 (unregService srv' msg).1 := by
  unfold unregService
  cases serviceOf msg.service with
  | none => exact ⟨rfl, h⟩
  | some s =>
    simp only [h.clients]
    split
    · exact ⟨rfl, h.eraseClient s msg.sockaddr⟩
    · exact ⟨rfl, h⟩

/-- A registration differs only where the log is counted. -/
theorem regService_congr (msg : MsgRegService) (hlog : srv.running .logging = false) :
    (regService srv' i msg).2 = (regService srv i msg).2 ∧
      SameTables (regService srv i msg).1 (regService srv' i msg).1 := by
  unfold regService
  cases hs : serviceOf msg.service with
  | none => exact ⟨rfl, h⟩
  | some s =>
    simp only [h.running]
    cases s with
    | logging =>
      simp only [hlog]
      exact ⟨rfl, h⟩
    | drive =>
      cases srv.running .drive with
      | false => exact ⟨rfl, h⟩
      | true =>
        simp only [register, h.2.1, if_true]
        split
        · exact ⟨rfl, (h.pushClient .drive msg.sockaddr).orFlags i _⟩
        · exact ⟨rfl, h⟩

end Congr

theorem running_regService (msg : MsgRegService) (s : ServiceId) :
    (regService srv i msg).1.running s = srv.running s := by
  rcases regService_cases srv i msg with h | ⟨s', h⟩
  · rw [h]
  · rw [h]
    exact srv.running_pushClient s' s _

/-- Every message is, if the logging service does not run. -/
theorem reply_congr {srv' : Server} (h : SameTables srv srv') (hlog : srv.running .logging = false) :
    (reply crc srv' i c k m').2 = (reply crc srv i c k m').2 ∧
      SameTables (reply crc srv i c k m').1 (reply crc srv' i c k m').1 := by
  cases k with
  | init => exact reply_init_congr h
  | unregService =>
    obtain ⟨hmsg, hsame⟩ := unregService_congr h (receivedReg (m'.drop msgHeaderSize) crc)
    rw [reply_unreg, reply_unreg, hmsg]
    exact ⟨rfl, hsame⟩
  | regService =>
    obtain ⟨hmsg, hsame⟩ := regService_congr (i := i) h (receivedReg (m'.drop msgHeaderSize) crc) hlog
    have hlog' : srv'.running .logging = false := by rw [h.running, hlog]
    rw [reply_reg, reply_reg, hmsg, running_regService, running_regService, hlog, hlog']
    simp only [Bool.false_eq_true, false_and, and_false, if_false]
    exact ⟨trivial, hsame⟩

/-! ### The log -/

/-- A registration that asks for the full log. -/
def logRequest : MsgRegService where
  header := ⟨cServMagic, cServVer, rcciMsgRegService, BitVec.ofNat 32 msgRegServiceSize, 0⟩
  service := rcciClientFlagLog
  status := 0
  sockaddr := someClient
  params := 1

theorem complete_logRequest : Complete .regService logRequest.toBytes := by
  refine ⟨isMessage_service (by decide) ⟨rfl, rfl, rfl⟩, ?_⟩
  decide

theorem complete_initMessage : Complete .init initMessage := by
  refine ⟨⟨rfl, ?_⟩, ?_⟩
  · decide
  · decide

/-- The log is in the reply. -/
theorem volume_logRequest (hadm : srv.admits .logging = true) :
    ((reply crc srv i c .regService logRequest.toBytes).2.map List.length).sum = msgRegServiceSize + srv.mLog.length := by
  simp only [Server.admits, Bool.and_eq_true] at hadm
  obtain ⟨hrun, hroom⟩ := hadm
  have hreg : regService srv i (receivedReg (logRequest.toBytes.drop msgHeaderSize) crc) =
      register srv i .logging (receivedReg (logRequest.toBytes.drop msgHeaderSize) crc) := by
    rw [receivedReg_toBytes]
    unfold regService
    rw [show serviceOf logRequest.service = some .logging from rfl]
    simp only [hrun, if_true]
  rw [reply_reg, running_regService, hrun, hreg, receivedReg_toBytes]
  have hp : logRequest.params ≠ 0 := by decide
  have hservice : logRequest.service = rcciClientFlagLog := rfl
  simp only [register, hroom, if_true, hservice, true_and, hp, ne_eq, not_false_eq_true, and_true]
  by_cases hlog : 0 < srv.mLog.length
  · rw [if_pos hlog]
    simp [textBytes]
  · rw [if_neg hlog]
    simp only [List.map_cons, List.map_nil, List.sum_cons, List.sum_nil, MsgRegService.length_toBytes]
    omega

end Next

/-- The limits of the services are those of the start. -/
def Limits (srv : Server) : Prop := ∀ s, (srv.mServices s).maxClients = (cServiceTable s).maxClients

theorem Limits.congr {srv srv' : Server} (h : Limits srv) (hs : srv'.mServices = srv.mServices) : Limits srv' := by
  intro s
  rw [hs]
  exact h s

theorem Limits.handle {srv : Server} (h : Limits srv) (i : Nat) (c : ClientInfo) (r : Request) :
    Limits (srv.handle i c r) := by
  cases r with
  | none => exact h
  | eof => exact h.congr (srv.mServices_removeClient i c)
  | init => exact h.congr rfl
  | register s a =>
    unfold Server.handle
    simp only
    split
    · intro t
      exact (srv.maxClients_pushClient s t a).trans (h t)
    · exact h
  | unregister s a =>
    intro t
    exact (srv.maxClients_eraseClient s t a).trans (h t)

theorem Limits.step {srv srv' : Server} {e : Event} (h : Limits srv) (hs : srv.step e = some srv') : Limits srv' := by
  rcases Server.step_cases hs with ⟨fd, -, -, ht⟩ | ⟨i, c, r, -, -, ht⟩ | ⟨-, ht⟩
  · exact h.congr ht.2.1
  · exact (h.handle i c r).congr ht.2.1
  · exact h.congr ht.2.1

/-- A logging service that runs has room for everyone. -/
theorem Limits.admits {srv : Server} (h : Limits srv) (hrun : srv.running .logging = true) :
    srv.admits .logging = true := by
  have hmax : (srv.mServices .logging).maxClients = 0 := h .logging
  simp [Server.admits, Service.canAddClient, hrun, hmax]

/-! ### Recovery -/

/-- The replies to the next message, the client lists and the flags are those without the message. -/
def Unnoticed (crc : U32) (srv : Server) (i : Nat) (m : List Byte) : Prop :=
  ∀ k m', Complete k m' → (k = .init ∨ Initialized srv i) →
    outcome unsegmented (fun _ => crc) srv i [m, m'] = outcome unsegmented (fun _ => crc) srv i [m']

section Recovery

variable {crc : U32} {srv : Server} {i : Nat} {c : ClientInfo} {m m' : List Byte} {k : MsgKind}

theorem Outcome.after_congr {srv' : Server} {sent sent' : List (List Byte)} (hsent : sent' = sent)
    (h : SameTables srv srv') : srv'.silent.after sent' = srv.silent.after sent := by
  rw [hsent, h.silent]

theorem BeginsInit.accepts {v : List Byte} (h : BeginsInit v) (x : List Byte) :
    MsgKind.init.expected.accepts (MsgHeader.ofBytes ((v ++ x).take msgHeaderSize)) = true := by
  rw [(header_congr (take_append_header h.1 x)).1]
  exact h.2

theorem mConnClients_reply_init (hc : srv.mConnClients[i]? = some c) (m : List Byte) :
    (reply crc srv i c .init m).1.mConnClients[i]? = some c.initialized := by
  rw [reply_init]
  simp [Server.orFlags, hc, ClientInfo.initialized]

/-- After the init message, nothing left is enough. -/
theorem LeavesNothing.outcome_eq (h : LeavesNothing srv c m) (hc : srv.mConnClients[i]? = some c) (hm : IsMessage k m')
    (hk : k = .init ∨ Initialized srv i) :
    outcome unsegmented (fun _ => crc) srv i [m, m'] = outcome unsegmented (fun _ => crc) srv i [m'] := by
  obtain ⟨hrest, hlog⟩ := h
  have hsame := rejectAll_tables srv c (skip c m.length m).1
  rw [outcome_behind_nothing hc hm hk hrest, outcome_message hc hm hk]
  rcases hlog with hrun | hquiet
  · exact Outcome.after_congr (reply_congr hsame hrun).1 (reply_congr hsame hrun).2
  · rw [rejectAll_silent srv hquiet]

/-- Before the init message, nothing left or something that goes down with the init message is enough. -/
theorem LeavesInit.outcome_eq (h : LeavesInit c m) (hc : srv.mConnClients[i]? = some c) (hm : IsMessage .init m') :
    outcome unsegmented (fun _ => crc) srv i [m, m'] = outcome unsegmented (fun _ => crc) srv i [m'] := by
  have hsame := rejectAll_tables srv c (skip c m.length m).1
  have hc' : (srv.rejectAll c (skip c m.length m).1).mConnClients[i]? = some c := hsame.1 ▸ hc
  have hconn : (reply crc (srv.rejectAll c (skip c m.length m).1) i c .init m').1.mConnClients[i]? =
      some c.initialized := mConnClients_reply_init hc' m'
  rw [outcome_message hc hm (Or.inl rfl)]
  unfold LeavesInit at h
  generalize hrest : (skip c m.length m).2 = rest at h
  rcases h with rfl | ⟨hbegin, hend⟩
  · rw [outcome_behind_nothing hc hm (Or.inl rfl) hrest]
    exact Outcome.after_congr (reply_init_congr hsame).1 (reply_init_congr hsame).2
  · -- the rest and the message are an init message, which is answered, and something that is not
    have hlen : (rest ++ m').length = rest.length + msgInitSize := by
      rw [List.length_append, hm.1]
      rfl
    have hle : MsgKind.init.expected.size ≤ (rest ++ m').length := by
      rw [hlen]
      exact Nat.le_add_left _ _
    have hsilent : Leads crc (reply crc (srv.rejectAll c (skip c m.length m).1) i c .init m').1 i
        ((rest ++ m').drop msgInitSize)
        (reply crc (srv.rejectAll c (skip c m.length m).1) i c .init m').1.silent := by
      rcases hend with hfew | hswallow
      · refine leads_few hconn ?_
        rw [List.length_drop, hlen]
        omega
      · have hfull : msgInitSize ≤ rest.length := by
          by_contra hnot
          rw [List.drop_of_length_le (by omega), skip_nil] at hswallow
          exact hswallow.1 rfl
        rw [List.drop_append_of_le_length hfull]
        refine leads_skip m.length hconn ?_
        rw [← (rejectAll_tables _ _ _).silent]
        exact leads_swallowed ((rejectAll_tables _ _ _).1 ▸ hconn) hswallow hm
    rw [← hrest] at hle hbegin hsilent
    have hleads := leads_accepted hc' (Or.inl rfl) (hbegin.accepts m') hle hsilent
    rw [outcome_behind hc hleads]
    exact Outcome.after_congr (reply_init_congr hsame).1 (reply_init_congr hsame).2

theorem first_reply (crc : U32) {p : List Byte} (hc : srv.mConnClients[i]? = some c) (hk : k = .init ∨ Initialized srv i)
    (hacc : k.expected.accepts (MsgHeader.ofBytes (p.take msgHeaderSize)) = true) (hle : k.expected.size ≤ p.length) :
    ∃ (o : Outcome) (sent : List (List Byte)), Leads crc srv i p (o.after sent) ∧ headSize sent = k.expected.size := by
  obtain ⟨c', hc', -⟩ : Initialized (reply crc srv i c k (p.take k.expected.size)).1 i := initialized_reply hc hk
  obtain ⟨o, ho⟩ := exists_leads crc (Nat.le_refl (p.drop k.expected.size).length) hc'
  exact ⟨o, _, leads_accepted hc hk hacc hle ho, headSize_reply hc⟩

/-- What is left either swallows an init message, or it is nothing, or the two are answered, and by a reply of another
length if what is left does not begin like an init message. -/
theorem rest_cases (crc : U32) (hc : srv.mConnClients[i]? = some c) (fuel : Nat) (hf : m.length ≤ fuel) :
    (skip c fuel m).2 = [] ∨ Swallows (skip c fuel m).2 ∨
      ∃ (o : Outcome) (sent : List (List Byte)), Leads crc srv i ((skip c fuel m).2 ++ initMessage) (o.after sent) ∧
        (BeginsInit (skip c fuel m).2 ∨ headSize sent = msgRegServiceSize ∧ Initialized srv i) := by
  have hinit : initMessage.length = msgInitSize := rfl
  have hcases := skip_rest srv hc fuel hf
  generalize (skip c fuel m).2 = rest at hcases ⊢
  by_cases hne : rest = []
  · exact .inl hne
  by_cases hbegin : BeginsInit rest
  · -- an init message, with bytes of the one that follows
    have hle : MsgKind.init.expected.size ≤ (rest ++ initMessage).length := by
      rw [List.length_append, hinit]
      exact Nat.le_add_left _ _
    obtain ⟨o, sent, hleads, -⟩ := first_reply crc (k := .init) hc (Or.inl rfl) (hbegin.accepts initMessage) hle
    exact .inr (.inr ⟨o, sent, hleads, .inl hbegin⟩)
  rcases hcases with hlen | ⟨k, hlen, hacc, hk⟩
  · exact .inr (.inl ⟨hne, hlen, hbegin⟩)
  · -- a message for a service, which the init message completes
    have hsize : k.expected.size = msgRegServiceSize := by
      cases k with
      | init =>
        rw [(header_congr (take_header rest)).1] at hacc
        exact absurd ⟨Nat.le_trans (by decide) hlen, hacc⟩ hbegin
      | regService => rfl
      | unregService => rfl
    have hinitialized : Initialized srv i := by
      rcases hk with rfl | hk
      · exact absurd hsize (by decide)
      · exact hk
    have hle : k.expected.size ≤ (rest ++ initMessage).length := by
      rw [hsize, List.length_append, hinit]
      exact Nat.add_le_add_right hlen msgInitSize
    have hacc' : k.expected.accepts (MsgHeader.ofBytes ((rest ++ initMessage).take msgHeaderSize)) = true := by
      rwa [List.take_append_of_le_length hlen]
    obtain ⟨o, sent, hleads, hhead⟩ := first_reply crc hc hk hacc' hle
    exact .inr (.inr ⟨o, sent, hleads, .inr ⟨hhead.trans hsize, hinitialized⟩⟩)

/-- An init message behind bytes that do not swallow it leads to a reply. -/
theorem swallows_or_answered (crc : U32) (hc : srv.mConnClients[i]? = some c) (fuel : Nat) (hf : m.length ≤ fuel) :
    Swallows (skip c fuel m).2 ∨
      ∃ (o : Outcome) (sent : List (List Byte)), Leads crc srv i (m ++ initMessage) (o.after sent) := by
  have hsame := rejectAll_tables srv c (skip c fuel m).1
  have hc' : (srv.rejectAll c (skip c fuel m).1).mConnClients[i]? = some c := hsame.1 ▸ hc
  rcases rest_cases crc hc' fuel hf with hrest | hv | ⟨o, sent, hleads, -⟩
  · have hleads : Leads crc (srv.rejectAll c (skip c fuel m).1) i ((skip c fuel m).2 ++ initMessage)
        ((reply crc (srv.rejectAll c (skip c fuel m).1) i c .init initMessage).1.silent.after
          (reply crc (srv.rejectAll c (skip c fuel m).1) i c .init initMessage).2) := by
      rw [hrest]
      exact leads_message hc' complete_initMessage.message (Or.inl rfl)
    exact .inr ⟨_, _, leads_skip fuel hc hleads⟩
  · exact .inl hv
  · exact .inr ⟨o, sent, leads_skip fuel hc hleads⟩

/-- An init message that is swallowed is missed. -/
theorem not_swallows_of_unnoticed (hc : srv.mConnClients[i]? = some c) (h : Unnoticed crc srv i m) :
    ¬ Swallows (skip c m.length m).2 := by
  intro hv
  have hsame := rejectAll_tables srv c (skip c m.length m).1
  have heq := h .init initMessage complete_initMessage (Or.inl rfl)
  rw [outcome_behind hc (leads_swallowed (hsame.1 ▸ hc) hv complete_initMessage.message),
    outcome_message hc complete_initMessage.message (Or.inl rfl)] at heq
  have hreplies := congrArg Outcome.replies heq
  simp [Server.silent, Outcome.after] at hreplies

/-- After the init message, anything left can be told from nothing. -/
theorem rest_nil_of_unnoticed (hc : srv.mConnClients[i]? = some c) (hinit : Initialized srv i)
    (h : Unnoticed crc srv i m) : (skip c m.length m).2 = [] := by
  have hsame := rejectAll_tables srv c (skip c m.length m).1
  have hc' : (srv.rejectAll c (skip c m.length m).1).mConnClients[i]? = some c := hsame.1 ▸ hc
  rcases rest_cases crc hc' m.length (Nat.le_refl _) with hrest | hv | ⟨o, sent, hleads, hbegin | ⟨hhead, -⟩⟩
  · exact hrest
  · exact absurd hv (not_swallows_of_unnoticed hc h)
  · -- with the bytes of a registration an init message is answered, by a shorter reply
    exfalso
    have hreg := h .regService logRequest.toBytes complete_logRequest (Or.inr hinit)
    have hle : MsgKind.init.expected.size ≤ ((skip c m.length m).2 ++ logRequest.toBytes).length := by
      rw [List.length_append, MsgRegService.length_toBytes]
      exact Nat.le_trans (by decide) (Nat.le_add_left _ _)
    obtain ⟨o, sent, hleads, hhead⟩ :=
      first_reply crc (k := .init) hc' (Or.inl rfl) (hbegin.accepts logRequest.toBytes) hle
    rw [outcome_behind hc hleads, outcome_message hc complete_logRequest.message (Or.inr hinit)] at hreg
    have hsent := (List.cons.inj (congrArg Outcome.replies hreg)).1
    rw [hsent, headSize_reply hc] at hhead
    exact absurd hhead (by decide)
  · -- with the bytes of an init message a registration is answered, by a longer reply
    exfalso
    have heq := h .init initMessage complete_initMessage (Or.inl rfl)
    rw [outcome_behind hc hleads, outcome_message hc complete_initMessage.message (Or.inl rfl)] at heq
    have hsent := (List.cons.inj (congrArg Outcome.replies heq)).1
    rw [hsent, headSize_reply hc] at hhead
    exact absurd hhead (by decide)

/-- A complaint in the log of a running logging service shows in the reply to a registration that asks for the log. -/
theorem quiet_of_unnoticed (hlim : Limits srv) (hc : srv.mConnClients[i]? = some c) (hinit : Initialized srv i)
    (h : Unnoticed crc srv i m) (hrest : (skip c m.length m).2 = []) (hrun : srv.running .logging = true) :
    ∀ header ∈ (skip c m.length m).1, headerKind c header = none := by
  have hsame := rejectAll_tables srv c (skip c m.length m).1
  have hreg := h .regService logRequest.toBytes complete_logRequest (Or.inr hinit)
  rw [outcome_behind_nothing hc complete_logRequest.message (Or.inr hinit) hrest,
    outcome_message hc complete_logRequest.message (Or.inr hinit)] at hreg
  have hsent := (List.cons.inj (congrArg Outcome.replies hreg)).1
  have hadm : (srv.rejectAll c (skip c m.length m).1).admits .logging = true :=
    (hlim.congr hsame.2.1).admits (by rw [hsame.running, hrun])
  have hvolume : ((reply crc (srv.rejectAll c (skip c m.length m).1) i c .regService logRequest.toBytes).2.map
      List.length).sum = msgRegServiceSize + (srv.rejectAll c (skip c m.length m).1).mLog.length :=
    volume_logRequest hadm
  rw [hsent, volume_logRequest (hlim.admits hrun)] at hvolume
  -- the log is as long as without the complaints
  intro header hmem
  by_contra hsome
  have hlog := log_rejectAll_lt srv ⟨header, hmem, hsome⟩
  omega

theorem LeavesNothing.of_unnoticed (hlim : Limits srv) (hc : srv.mConnClients[i]? = some c) (hinit : Initialized srv i)
    (h : Unnoticed crc srv i m) : LeavesNothing srv c m := by
  have hrest := rest_nil_of_unnoticed hc hinit h
  refine ⟨hrest, ?_⟩
  cases hrun : srv.running .logging with
  | false => exact Or.inl rfl
  | true => exact Or.inr (quiet_of_unnoticed hlim hc hinit h hrest hrun)

/-- Before the init message, anything else left breaks the init message that follows or adds a reply. -/
theorem LeavesInit.of_unnoticed (hc : srv.mConnClients[i]? = some c) (hinit : ¬ Initialized srv i)
    (h : Unnoticed crc srv i m) : LeavesInit c m := by
  have hsame := rejectAll_tables srv c (skip c m.length m).1
  have hc' : (srv.rejectAll c (skip c m.length m).1).mConnClients[i]? = some c := hsame.1 ▸ hc
  unfold LeavesInit
  rcases rest_cases crc hc' m.length (Nat.le_refl _) with hrest | hv | ⟨-, -, -, hbegin | ⟨-, hinit'⟩⟩
  · exact .inl hrest
  · exact absurd hv (not_swallows_of_unnoticed hc h)
  · refine .inr ⟨hbegin, ?_⟩
    by_cases hfew : (skip c m.length m).2.length < msgInitSize
    · exact .inl hfew
    right
    have hfull : msgInitSize ≤ (skip c m.length m).2.length := Nat.le_of_not_lt hfew
    have hlen : (((skip c m.length m).2).drop msgInitSize).length ≤ m.length := by
      have hle := length_skip_le c m.length m
      rw [List.length_drop]
      omega
    have hconn : (reply crc (srv.rejectAll c (skip c m.length m).1) i c .init initMessage).1.mConnClients[i]? =
        some c.initialized := mConnClients_reply_init hc' initMessage
    -- whatever is not swallowed is a second reply
    by_contra hnot
    obtain ⟨o, sent, hleads⟩ := (swallows_or_answered crc hconn m.length hlen).resolve_left hnot
    have hle : MsgKind.init.expected.size ≤ ((skip c m.length m).2 ++ initMessage).length := by
      rw [List.length_append]
      exact Nat.le_trans hfull (Nat.le_add_right _ _)
    rw [← List.drop_append_of_le_length hfull] at hleads
    have hboth := leads_accepted hc' (Or.inl rfl) (hbegin.accepts initMessage) hle hleads
    have heq := h .init initMessage complete_initMessage (Or.inl rfl)
    rw [outcome_behind hc hboth, outcome_message hc complete_initMessage.message (Or.inl rfl)] at heq
    have hreplies := (List.cons.inj (congrArg Outcome.replies heq)).2
    simp [Server.silent, Outcome.after] at hreplies
  · exfalso
    exact hinit ((initialized_rejectAll _).1 hinit')

end Recovery

/-- In every state of the server the message goes unnoticed exactly if what it leaves unread allows it.  (That the message
is rejected is not needed.) -/
theorem unnoticed_iff_recovers (env : OpenEnv) (es : List Event) (srv : Server)
    (h : Lts.exec Server.step (started env) es = some srv) (crc : U32) (i : Nat) (c : ClientInfo)
    (hc : srv.mConnClients[i]? = some c) (m : List Byte) : Unnoticed crc srv i m ↔ Recovers srv c m := by
  have hlim : Limits srv := Lts.exec_invariant' (fun _ _ _ => Limits.step) (fun s => (fresh_started env).maxClients s) h
  unfold Recovers
  by_cases hinit : c.flags &&& rcciClientFlagInit = 0
  · rw [if_pos hinit]
    have hnot : ¬ Initialized srv i := by
      rintro ⟨c', hc', hflag⟩
      rw [hc, Option.some.injEq] at hc'
      exact hflag (hc' ▸ hinit)
    constructor
    · intro hun
      exact LeavesInit.of_unnoticed hc hnot hun
    · intro hleaves k m' hm hk
      obtain rfl := hk.resolve_right hnot
      exact hleaves.outcome_eq hc hm.message
  · rw [if_neg hinit]
    constructor
    · intro hun
      exact LeavesNothing.of_unnoticed hlim hc ⟨c, hc, hinit⟩ hun
    · intro hleaves k m' hm hk
      exact hleaves.outcome_eq hc hm.message hk

/-- The run that leads to `accepted`. -/
theorem exec_accepted : Lts.exec Server.step (started openEnv) [.accept 6 true []] = some accepted := rfl

/-- A close message, which is not implemented, is no more than a header. -/
def closeMessage : List Byte := MsgHeader.toBytes ⟨cServMagic, cServVer, 3, BitVec.ofNat 32 msgHeaderSize, 0⟩

theorem unnoticed_closeMessage : Unnoticed 0 accepted 0 closeMessage :=
  (unnoticed_iff_recovers openEnv [.accept 6 true []] accepted exec_accepted 0 0 ⟨6, rcciClientFlagNone⟩ rfl
    closeMessage).2 (by decide)

/-- An init message of another version. -/
def oldInitMessage : List Byte :=
  MsgHeader.toBytes ⟨rcciMsgInitMagic, 0x100, rcciMsgInit, BitVec.ofNat 32 msgInitSize, 0⟩ ++
    List.replicate (msgInitSize - msgHeaderSize) 0

/-- The 12 bytes behind its header swallow the init message that follows. -/
theorem noticed_oldInitMessage :
    ¬ ∀ (env : OpenEnv) (es : List Event) (srv : Server), Lts.exec Server.step (started env) es = some srv →
      ∀ (crc : U32) (i : Nat) (c : ClientInfo), srv.mConnClients[i]? = some c →
        ∀ m, Rejected c m → Unnoticed crc srv i m := by
  intro h
  have hrejected : Rejected ⟨6, rcciClientFlagNone⟩ oldInitMessage := ⟨by decide, by decide, by decide⟩
  have hun := h openEnv [.accept 6 true []] accepted exec_accepted 0 0 ⟨6, rcciClientFlagNone⟩ rfl oldInitMessage hrejected
  have hnot : ¬ Initialized accepted 0 := by
    rintro ⟨c, hc, hflag⟩
    cases hc
    exact hflag rfl
  have hleaves := LeavesInit.of_unnoticed (c := ⟨6, rcciClientFlagNone⟩) rfl hnot hun
  revert hleaves
  decide

end RcCarControl.Daemon
