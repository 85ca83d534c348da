import RcCarControl.Daemon.InitGate
import RcCarControl.Daemon.Link

/-!
# Streams with rejected headers

What the bytes of a connection lead to when reads are not cut short (`unsegmented`): a header that is rejected costs its
16 bytes and, unless its type is not supported, a complaint in the log; a message is answered; anything else comes to
nothing.  `Leads` does not depend on what was read before, so that its rules compose.
-/

namespace RcCarControl.Daemon

open Interface LittleEndian

/-- A `read` returns all the bytes asked for that there are. -/
def unsegmented (_ : Nat) : Nat := msgRegServiceSize

/-- The server does not take a message with this header. -/
def rejects (c : ClientInfo) (header : MsgHeader) : Bool :=
  match headerKind c header with
  | some k => !k.expected.accepts header
  | none => true

/-! ### Rejections -/

/-- The server after a rejected header: a handler complains, an unsupported type passes in silence. -/
def Server.reject (srv : Server) (c : ClientInfo) (header : MsgHeader) : Server :=
  match headerKind c header with
  | some k => srv.print (str k.expected.wrongText ++ dec header.type.toNat ++ str " expected: " ++
      dec k.expected.expectedText.toNat ++ str " from: " ++ dec c.fd ++ str "\n")
  | none => srv

def Server.rejectAll (srv : Server) (c : ClientInfo) (headers : List MsgHeader) : Server :=
  headers.foldl (fun srv header => srv.reject c header) srv

section Rejections

variable (srv : Server) (c : ClientInfo) (header : MsgHeader) (headers : List MsgHeader)

theorem reject_tables : SameTables srv (srv.reject c header) := by
  unfold Server.reject
  split
  · exact (SameTables.refl srv).print _
  · exact SameTables.refl srv

theorem rejectAll_tables : SameTables srv (srv.rejectAll c headers) := by
  induction headers generalizing srv with
  | nil => exact SameTables.refl srv
  | cons header headers ih =>
    obtain ⟨hconns, hservices, hcb⟩ := ih (srv.reject c header)
    obtain ⟨hconns', hservices', hcb'⟩ := reject_tables srv c header
    exact ⟨hconns.trans hconns', hservices.trans hservices', hcb.trans hcb'⟩

variable {c} in
theorem reject_silent {header : MsgHeader} (h : headerKind c header = none) : srv.reject c header = srv := by
  simp only [Server.reject, h]

variable {c} in
theorem rejectAll_silent {headers : List MsgHeader} (h : ∀ header ∈ headers, headerKind c header = none) :
    srv.rejectAll c headers = srv := by
  induction headers with
  | nil => rfl
  | cons header headers ih =>
    have hrest := ih fun other hmem => h other (List.mem_cons_of_mem header hmem)
    unfold Server.rejectAll at hrest ⊢
    rw [List.foldl_cons, reject_silent srv (h header List.mem_cons_self), hrest]

theorem log_reject_le : srv.mLog.length ≤ (srv.reject c header).mLog.length := by
  unfold Server.reject
  split
  · simp only [Server.print, List.length_append]
    omega
  · exact Nat.le_refl _

theorem log_rejectAll_le : srv.mLog.length ≤ (srv.rejectAll c headers).mLog.length := by
  induction headers generalizing srv with
  | nil => exact Nat.le_refl _
  | cons header headers ih => exact Nat.le_trans (log_reject_le srv c header) (ih (srv.reject c header))

variable {c} in
/-- A complaint is in the log. -/
theorem log_rejectAll_lt {headers : List MsgHeader} (h : ∃ header ∈ headers, headerKind c header ≠ none) :
    srv.mLog.length < (srv.rejectAll c headers).mLog.length := by
  induction headers generalizing srv with
  | nil => simp at h
  | cons header headers ih =>
    have hle := log_reject_le srv c header
    cases hk : headerKind c header with
    | none =>
      have hrest : ∃ header ∈ headers, headerKind c header ≠ none := by simpa [hk] using h
      exact Nat.lt_of_le_of_lt hle (ih (srv.reject c header) hrest)
    | some k =>
      have hlt : srv.mLog.length < (srv.reject c header).mLog.length := by
        simp only [Server.reject, hk, Server.print, List.length_append, str]
        simp
      exact Nat.lt_of_lt_of_le hlt (log_rejectAll_le (srv.reject c header) c headers)

end Rejections

/-! ### One call -/

section Calls

variable {crc : U32} {srv : Server} {i : Nat} {c : ClientInfo} {p : List Byte}

variable (crc) in
theorem read_unsegmented {n : Nat} (r : Nat) (s : List (List Byte)) (fd : Int) (hne : p ≠ []) (hn : 0 < n)
    (hle : n ≤ msgRegServiceSize) :
    (streamSock unsegmented fun _ => crc).read fd n ⟨p, r, s⟩ = some (.got (p.take n), ⟨p.drop n, r + 1, s⟩) := by
  have hpos : 0 < p.length := List.length_pos_iff.2 hne
  have htaken : taken unsegmented n ⟨p, r, s⟩ = min n p.length := by
    unfold taken unsegmented
    simp only
    omega
  simp only [streamSock, if_neg hne, htaken]
  by_cases hlen : n ≤ p.length
  · rw [Nat.min_eq_left hlen]
  · rw [Nat.min_eq_right (by omega), List.take_length, List.drop_length, List.take_of_length_le (by omega),
      List.drop_of_length_le (by omega)]

theorem take_ne_nil {n : Nat} (hne : p ≠ []) (hn : 0 < n) : p.take n ≠ [] := by
  rw [← List.length_pos_iff, List.length_take]
  exact Nat.lt_min.2 ⟨hn, List.length_pos_iff.2 hne⟩

variable (crc) in
/-- A header that is cut short by the end of the stream. -/
theorem processData_short (hc : srv.mConnClients[i]? = some c) (hne : p ≠ []) (hlen : p.length < msgHeaderSize)
    (r : Nat) :
    ∃ text, processData (streamSock unsegmented fun _ => crc) srv i ⟨p, r, []⟩ =
      some (srv.print text, ⟨[], r + 1, []⟩, -1) := by
  have hread := read_unsegmented crc r [] c.fd hne (n := msgHeaderSize) (by decide) (by decide)
  rw [List.drop_of_length_le (Nat.le_of_lt hlen)] at hread
  have hshort : (p.take msgHeaderSize).length ≠ msgHeaderSize := by
    rw [List.length_take]
    omega
  unfold processData
  simp only [hc, Option.bind_some, hread, if_neg (take_ne_nil hne (n := msgHeaderSize) (by decide)), if_neg hshort]
  exact ⟨_, rfl⟩

/-- `processData` with a whole header. -/
theorem processData_header (hc : srv.mConnClients[i]? = some c) (hlen : msgHeaderSize ≤ p.length) (r : Nat) :
    processData (streamSock unsegmented fun _ => crc) srv i ⟨p, r, []⟩ =
      processHeader (streamSock unsegmented fun _ => crc) srv i c (MsgHeader.ofBytes (p.take msgHeaderSize))
        ⟨p.drop msgHeaderSize, r + 1, []⟩ := by
  have hne : p ≠ [] := by
    rintro rfl
    exact absurd hlen (by decide)
  have hread := read_unsegmented crc r [] c.fd hne (n := msgHeaderSize) (by decide) (by decide)
  have hwhole : (p.take msgHeaderSize).length = msgHeaderSize := by
    rw [List.length_take]
    exact Nat.min_eq_left hlen
  unfold processData
  simp only [hc, Option.bind_some, hread, if_neg (take_ne_nil hne (n := msgHeaderSize) (by decide)), if_pos hwhole]

theorem processData_rejected (hc : srv.mConnClients[i]? = some c) (hlen : msgHeaderSize ≤ p.length)
    (hrej : rejects c (MsgHeader.ofBytes (p.take msgHeaderSize)) = true) (r : Nat) :
    processData (streamSock unsegmented fun _ => crc) srv i ⟨p, r, []⟩ =
      some (srv.reject c (MsgHeader.ofBytes (p.take msgHeaderSize)), ⟨p.drop msgHeaderSize, r + 1, []⟩, -1) := by
  rw [processData_header hc hlen, processHeader_eq]
  unfold rejects at hrej
  unfold Server.reject
  cases hk : headerKind c (MsgHeader.ofBytes (p.take msgHeaderSize)) with
  | none => rfl
  | some k =>
    simp only [hk, Bool.not_eq_true'] at hrej
    simp only [processMsg, readMessage, hrej]
    rfl

variable (crc) in
/-- A message that is cut short by the end of the stream: the read of its rest blocks or is short. -/
theorem processData_cut (hc : srv.mConnClients[i]? = some c) (hlen : msgHeaderSize ≤ p.length) {k : MsgKind}
    (hk : headerKind c (MsgHeader.ofBytes (p.take msgHeaderSize)) = some k)
    (hacc : k.expected.accepts (MsgHeader.ofBytes (p.take msgHeaderSize)) = true) (hcut : p.length < k.expected.size)
    (r : Nat) :
    processData (streamSock unsegmented fun _ => crc) srv i ⟨p, r, []⟩ = none ∨
      ∃ text, processData (streamSock unsegmented fun _ => crc) srv i ⟨p, r, []⟩ =
        some (srv.print text, ⟨[], r + 2, []⟩, -1) := by
  rw [processData_header hc hlen, processHeader_eq, hk]
  simp only [processMsg, readMessage, hacc, if_true]
  by_cases hrest : p.drop msgHeaderSize = []
  · left
    rw [hrest]
    rfl
  · right
    have hsize := k.headerSize_lt
    have hrem : k.expected.remBytes = k.expected.size - msgHeaderSize := rfl
    have hle : k.expected.remBytes ≤ msgRegServiceSize := by cases k <;> decide
    have hread := read_unsegmented crc (r + 1) [] c.fd hrest (n := k.expected.remBytes) (by omega) hle
    have hshort : (p.drop msgHeaderSize).length < k.expected.remBytes := by
      rw [List.length_drop]
      omega
    rw [List.drop_of_length_le (Nat.le_of_lt hshort), List.take_of_length_le (Nat.le_of_lt hshort)] at hread
    have hcount : ((p.drop msgHeaderSize).length : Int) ≠ k.expected.remBytes := by omega
    simp only [hread, Option.map_some]
    split
    · next heq => exact absurd heq hcount
    · exact ⟨_, rfl⟩

end Calls

/-! ### Replies -/

/-- The server after a message and what it replies.  (The checksum on the stack is the same at every reply.) -/
def reply (crc : U32) (srv : Server) (i : Nat) (c : ClientInfo) (k : MsgKind) (m : List Byte) :
    Server × List (List Byte) :=
  let out := answer (streamSock unsegmented fun _ => crc) srv i c k (m.drop msgHeaderSize) ⟨[], 0, []⟩
  (out.1, out.2.1.sent)

section Replies

variable {crc : U32} {srv : Server} {i : Nat} {c : ClientInfo} {k : MsgKind} {m : List Byte}

theorem answer_eq_reply (crc : U32) (srv : Server) (i : Nat) (c : ClientInfo) (k : MsgKind) (m rest : List Byte)
    (r : Nat) :
    ∃ ret, answer (streamSock unsegmented fun _ => crc) srv i c k (m.drop msgHeaderSize) ⟨rest, r, []⟩ =
      ((reply crc srv i c k m).1, ⟨rest, r, (reply crc srv i c k m).2⟩, ret) := by
  have hwrite (bytes : List Byte) (w : Stream) : (streamSock unsegmented fun _ => crc).write c.fd bytes w =
      ((bytes.length : Int), { w with sent := w.sent ++ [bytes] }) := rfl
  have hcrc (w : Stream) : (streamSock unsegmented fun _ => crc).crc w = crc := rfl
  unfold reply
  cases k with
  | init =>
    simp only [answer, answerInit, hwrite, MsgInit.length_toBytes, if_true]
    exact ⟨_, rfl⟩
  | regService =>
    simp only [answer, answerReg, hwrite, hcrc, MsgRegService.length_toBytes, textBytes, List.length_map, if_true]
    split
    · exact ⟨_, rfl⟩
    · exact ⟨_, rfl⟩
  | unregService =>
    simp only [answer, answerUnreg, hwrite, hcrc, MsgRegService.length_toBytes, if_true]
    exact ⟨_, rfl⟩

/-- The first thing written is as long as the message. -/
theorem headSize_reply (hc : srv.mConnClients[i]? = some c) : headSize (reply crc srv i c k m).2 = k.expected.size := by
  obtain ⟨srv', sent, ret, ha, hsent, -⟩ :=
    answer_stream unsegmented (fun _ => crc) hc k (m.drop msgHeaderSize) ⟨[], 0, []⟩
  unfold reply
  rw [ha]
  exact hsent

theorem reply_ne_nil (hc : srv.mConnClients[i]? = some c) : (reply crc srv i c k m).2 ≠ [] := by
  intro hnil
  have hhead : headSize (reply crc srv i c k m).2 = k.expected.size := headSize_reply hc
  have hsize := k.headerSize_lt
  rw [hnil, headSize] at hhead
  omega

/-- The reply to an init message. -/
theorem reply_init : reply crc srv i c .init m =
    (srv.orFlags i rcciClientFlagInit, [MsgInit.toBytes
      ⟨⟨cServMagic, cServVer, rcciMsgInit, BitVec.ofNat 32 msgInitSize, 0⟩, rcciStatusAck,
        BitVec.ofInt 32 (srv.mServices .logging).port, BitVec.ofInt 32 (srv.mServices .drive).port⟩]) := rfl

variable (crc) in
theorem processData_reply (hc : srv.mConnClients[i]? = some c) (hm : IsMessage k m) (hk : k = .init ∨ Initialized srv i)
    (rest : List Byte) (r : Nat) :
    ∃ ret, processData (streamSock unsegmented fun _ => crc) srv i ⟨m ++ rest, r, []⟩ =
      some ((reply crc srv i c k m).1, ⟨rest, r + 2, (reply crc srv i c k m).2⟩, ret) := by
  have hle : m.length - msgHeaderSize ≤ unsegmented (r + 1) := by
    have hsize : k.expected.size - msgHeaderSize ≤ msgRegServiceSize := by cases k <;> decide
    rw [hm.1]
    exact hsize
  obtain ⟨ret, ha⟩ := answer_eq_reply crc srv i c k m rest (r + 2)
  exact ⟨ret, by rw [processData_answer (fun _ => crc) hc hm hk rest (r := r) (by unfold unsegmented; decide) hle, ha]⟩

end Replies

/-! ### What a stream leads to -/

/-- What is seen of a run of `serve`. -/
def seen (r : Server × List (List (List Byte))) : Outcome :=
  ⟨r.2.filter fun sent => !sent.isEmpty, r.1.clients, r.1.mConnClients.map (·.flags)⟩

/-- No reply, and the server as it is. -/
def Server.silent (srv : Server) : Outcome := ⟨[], srv.clients, srv.mConnClients.map (·.flags)⟩

/-- Another reply in front. -/
def Outcome.after (o : Outcome) (sent : List (List Byte)) : Outcome := { o with replies := sent :: o.replies }

/-- What the bytes lead to, whatever was read before them. -/
def Leads (crc : U32) (srv : Server) (i : Nat) (p : List Byte) (o : Outcome) : Prop :=
  ∀ fuel r s, p.length ≤ fuel → seen (serve unsegmented (fun _ => crc) fuel srv i ⟨p, r, s⟩) = o

section Streams

variable {crc : U32} {srv srv' : Server} {i : Nat} {c : ClientInfo} {p : List Byte} {o : Outcome}

theorem Leads.outcome_eq {messages : List (List Byte)} (h : Leads crc srv i messages.flatten o) :
    outcome unsegmented (fun _ => crc) srv i messages = o :=
  h messages.flatten.length 0 [] (Nat.le_refl _)

theorem SameTables.silent (h : SameTables srv srv') : srv'.silent = srv.silent := by
  unfold Server.silent
  rw [funext h.clients, h.1]

theorem leads_nil : Leads crc srv i [] srv.silent := by
  intro fuel r s _
  rw [serve_nil]
  rfl

/-- A call that writes nothing. -/
theorem leads_unanswered {rest : List Byte} (hne : p ≠ []) (hlt : rest.length < p.length)
    (hcall : ∀ r, ∃ r' ret, processData (streamSock unsegmented fun _ => crc) srv i ⟨p, r, []⟩ =
      some (srv', ⟨rest, r', []⟩, ret)) (h : Leads crc srv' i rest o) : Leads crc srv i p o := by
  intro fuel r s hf
  cases fuel with
  | zero => exact absurd (List.length_eq_zero_iff.1 (Nat.le_zero.1 hf)) hne
  | succ fuel =>
    obtain ⟨r', ret, hr⟩ := hcall r
    have hrest := h fuel r' [] (by omega)
    rw [serve_succ (w := ⟨p, r, s⟩) fuel hne hr, ← hrest]
    rfl

theorem leads_short (hc : srv.mConnClients[i]? = some c) (hlen : p.length < msgHeaderSize) :
    Leads crc srv i p srv.silent := by
  by_cases hne : p = []
  · rw [hne]
    exact leads_nil
  · intro fuel r s hf
    cases fuel with
    | zero => exact absurd (List.length_eq_zero_iff.1 (Nat.le_zero.1 hf)) hne
    | succ fuel =>
      obtain ⟨text, hr⟩ := processData_short crc hc hne hlen r
      rw [serve_succ (w := ⟨p, r, s⟩) fuel hne hr, serve_nil]
      rfl

theorem leads_cut (hc : srv.mConnClients[i]? = some c) (hlen : msgHeaderSize ≤ p.length) {k : MsgKind}
    (hk : headerKind c (MsgHeader.ofBytes (p.take msgHeaderSize)) = some k)
    (hacc : k.expected.accepts (MsgHeader.ofBytes (p.take msgHeaderSize)) = true) (hcut : p.length < k.expected.size) :
    Leads crc srv i p srv.silent := by
  have hne : p ≠ [] := by
    rintro rfl
    exact absurd hlen (by decide)
  intro fuel r s hf
  cases fuel with
  | zero => exact absurd (List.length_eq_zero_iff.1 (Nat.le_zero.1 hf)) hne
  | succ fuel =>
    rcases processData_cut crc hc hlen hk hacc hcut r with hr | ⟨text, hr⟩
    · rw [serve_succ_none (w := ⟨p, r, s⟩) fuel hr]
      rfl
    · rw [serve_succ (w := ⟨p, r, s⟩) fuel hne hr, serve_nil]
      rfl

/-- A message, with what follows it. -/
theorem leads_reply {k : MsgKind} {m rest : List Byte} (hc : srv.mConnClients[i]? = some c) (hm : IsMessage k m)
    (hk : k = .init ∨ Initialized srv i) (h : Leads crc (reply crc srv i c k m).1 i rest o) :
    Leads crc srv i (m ++ rest) (o.after (reply crc srv i c k m).2) := by
  have hsize := k.headerSize_lt
  have hlen := hm.1
  have hne : m ++ rest ≠ [] := by
    rw [← List.length_pos_iff, List.length_append]
    omega
  intro fuel r s hf
  rw [List.length_append] at hf
  cases fuel with
  | zero => omega
  | succ fuel =>
    obtain ⟨ret, hr⟩ := processData_reply crc hc hm hk rest r
    have hrest := h fuel (r + 2) (reply crc srv i c k m).2 (by omega)
    rw [serve_succ (w := ⟨m ++ rest, r, s⟩) fuel hne hr, ← hrest]
    have hsent : (reply crc srv i c k m).2 ≠ [] := reply_ne_nil hc
    simp [seen, Outcome.after, hsent]

theorem leads_message {k : MsgKind} {m : List Byte} (hc : srv.mConnClients[i]? = some c) (hm : IsMessage k m)
    (hk : k = .init ∨ Initialized srv i) :
    Leads crc srv i m ((reply crc srv i c k m).1.silent.after (reply crc srv i c k m).2) := by
  rw [← List.append_nil m]
  have h : Leads crc srv i (m ++ []) ((reply crc srv i c k m).1.silent.after (reply crc srv i c k m).2) :=
    leads_reply hc hm hk leads_nil
  rwa [List.append_nil] at h ⊢

/-- What a stream begins with. -/
theorem stream_cases (srv : Server) (hc : srv.mConnClients[i]? = some c) (p : List Byte) :
    p.length < msgHeaderSize ∨
      (msgHeaderSize ≤ p.length ∧ rejects c (MsgHeader.ofBytes (p.take msgHeaderSize)) = true) ∨
      ∃ k, msgHeaderSize ≤ p.length ∧ headerKind c (MsgHeader.ofBytes (p.take msgHeaderSize)) = some k ∧
        k.expected.accepts (MsgHeader.ofBytes (p.take msgHeaderSize)) = true ∧ (k = .init ∨ Initialized srv i) := by
  by_cases hlen : p.length < msgHeaderSize
  · exact .inl hlen
  have hle : msgHeaderSize ≤ p.length := Nat.le_of_not_lt hlen
  cases hrej : rejects c (MsgHeader.ofBytes (p.take msgHeaderSize)) with
  | true => exact .inr (.inl ⟨hle, rfl⟩)
  | false =>
    unfold rejects at hrej
    cases hk : headerKind c (MsgHeader.ofBytes (p.take msgHeaderSize)) with
    | none => simp [hk] at hrej
    | some k =>
      simp only [hk, Bool.not_eq_false'] at hrej
      refine .inr (.inr ⟨k, hle, rfl, hrej, ?_⟩)
      by_cases hinit : k = .init
      · exact .inl hinit
      · exact .inr ⟨c, hc, flag_of_headerKind hk hinit⟩

/-- An accepted header with enough bytes behind it is a message. -/
theorem message_of_accepts {k : MsgKind} (hacc : k.expected.accepts (MsgHeader.ofBytes (p.take msgHeaderSize)) = true)
    (hle : k.expected.size ≤ p.length) : IsMessage k (p.take k.expected.size) := by
  have hsize := k.headerSize_lt
  refine ⟨by rw [List.length_take]; omega, ?_⟩
  rwa [List.take_take, Nat.min_eq_left (Nat.le_of_lt hsize)]

/-- Such a message is answered first. -/
theorem leads_accepted {k : MsgKind} (hc : srv.mConnClients[i]? = some c) (hk : k = .init ∨ Initialized srv i)
    (hacc : k.expected.accepts (MsgHeader.ofBytes (p.take msgHeaderSize)) = true) (hle : k.expected.size ≤ p.length)
    (h : Leads crc (reply crc srv i c k (p.take k.expected.size)).1 i (p.drop k.expected.size) o) :
    Leads crc srv i p (o.after (reply crc srv i c k (p.take k.expected.size)).2) := by
  have hreply := leads_reply hc (message_of_accepts hacc hle) hk h
  rwa [List.take_append_drop] at hreply

theorem initialized_reply {k : MsgKind} {m : List Byte} (hc : srv.mConnClients[i]? = some c)
    (hk : k = .init ∨ Initialized srv i) : Initialized (reply crc srv i c k m).1 i := by
  obtain ⟨srv', sent, ret, ha, -, hinit⟩ :=
    answer_stream unsegmented (fun _ => crc) hc k (m.drop msgHeaderSize) ⟨[], 0, []⟩
  unfold reply
  rw [ha]
  exact hinit hk

/-- A rejected header costs nothing but itself. -/
theorem leads_rejected (hc : srv.mConnClients[i]? = some c) (hlen : msgHeaderSize ≤ p.length)
    (hrej : rejects c (MsgHeader.ofBytes (p.take msgHeaderSize)) = true)
    (h : Leads crc (srv.reject c (MsgHeader.ofBytes (p.take msgHeaderSize))) i (p.drop msgHeaderSize) o) :
    Leads crc srv i p o := by
  have hne : p ≠ [] := by
    rintro rfl
    exact absurd hlen (by decide)
  have hlt : (p.drop msgHeaderSize).length < p.length := by
    have hpos := List.length_pos_iff.2 hne
    rw [List.length_drop]
    unfold msgHeaderSize
    omega
  exact leads_unanswered hne hlt (fun r => ⟨r + 1, -1, processData_rejected hc hlen hrej r⟩) h

/-- Every stream leads somewhere. -/
theorem exists_leads (crc : U32) {n : Nat} (hn : p.length ≤ n) (hc : srv.mConnClients[i]? = some c) :
    ∃ o, Leads crc srv i p o := by
  induction n generalizing srv c p with
  | zero =>
    have hnil : p = [] := List.length_eq_zero_iff.1 (Nat.le_zero.1 hn)
    rw [hnil]
    exact ⟨_, leads_nil⟩
  | succ n ih =>
    rcases stream_cases srv hc p with hlen | ⟨hlen, hrej⟩ | ⟨k, hlen, hk, hacc, hinit⟩
    · exact ⟨_, leads_short hc hlen⟩
    · have hsame := reject_tables srv c (MsgHeader.ofBytes (p.take msgHeaderSize))
      have hrest : (p.drop msgHeaderSize).length ≤ n := by
        rw [List.length_drop]
        unfold msgHeaderSize
        omega
      obtain ⟨o, ho⟩ := ih hrest (hsame.1 ▸ hc)
      exact ⟨o, leads_rejected hc hlen hrej ho⟩
    · by_cases hle : k.expected.size ≤ p.length
      · obtain ⟨c', hc', -⟩ : Initialized (reply crc srv i c k (p.take k.expected.size)).1 i :=
          initialized_reply hc hinit
        have hsize := k.headerSize_lt
        have hrest : (p.drop k.expected.size).length ≤ n := by
          rw [List.length_drop]
          omega
        obtain ⟨o, ho⟩ := ih hrest hc'
        exact ⟨_, leads_accepted hc hinit hacc hle ho⟩
      · exact ⟨_, leads_cut hc hlen hk hacc (Nat.lt_of_not_le hle)⟩

/-- Fewer bytes than the shortest message are not answered. -/
theorem leads_few (hc : srv.mConnClients[i]? = some c) (hlt : p.length < msgInitSize) :
    Leads crc srv i p srv.silent := by
  rcases stream_cases srv hc p with hlen | ⟨hlen, hrej⟩ | ⟨k, hlen, hk, hacc, -⟩
  · exact leads_short hc hlen
  · have hsame := reject_tables srv c (MsgHeader.ofBytes (p.take msgHeaderSize))
    have hrest : (p.drop msgHeaderSize).length < msgHeaderSize := by
      rw [List.length_drop]
      unfold msgHeaderSize
      unfold msgInitSize at hlt
      omega
    rw [← hsame.silent]
    exact leads_rejected hc hlen hrej (leads_short (hsame.1 ▸ hc) hrest)
  · have hsize : msgInitSize ≤ k.expected.size := by cases k <;> decide
    exact leads_cut hc hlen hk hacc (by omega)

end Streams

end RcCarControl.Daemon
