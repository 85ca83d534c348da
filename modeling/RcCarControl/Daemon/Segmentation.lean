import Mathlib.Algebra.Ring.Nat
import RcCarControl.Daemon.Requests

/-!
# Segmentation of a connection's bytes

A connection delivers its bytes in pieces: `read` for `n` bytes returns between 1 and `n` of those still to come, by a
segmentation `seg` that gives a number for each `read`.  `serve` calls `processData` until all bytes are consumed.

`processData` and its handlers take a short read for a malformed message, so what a stream of messages leads to depends on
its segmentation.  A call that replies consumes as many bytes as its reply starts with, and a short read consumes bytes
for no reply; so the replies add up to the length of the stream exactly if no read is short (`whole_of_cost`), and then
all segmentations agree (`serve_congr`).
-/

namespace RcCarControl.Daemon

open Interface LittleEndian

/-! ### Streams -/

structure Stream where
  /-- The bytes still to come. -/
  pending : List Byte
  /-- How often `read` was called. -/
  reads : Nat
  /-- What this call of `processData` has written. -/
  sent : List (List Byte)

/-- How many bytes a `read` for `n` of them returns. -/
def taken (seg : Nat → Nat) (n : Nat) (w : Stream) : Nat := min (max 1 (seg w.reads)) (min n w.pending.length)

/-- A `read` blocks when no bytes are left, a `write` is complete. -/
def streamSock (seg : Nat → Nat) (crc : Nat → U32) : Sock Stream where
  read _ n w :=
    if w.pending = [] then none
    else
      some (.got (w.pending.take (taken seg n w)),
        { w with pending := w.pending.drop (taken seg n w), reads := w.reads + 1 })
  write _ bytes w := (bytes.length, { w with sent := w.sent ++ [bytes] })
  crc w := crc w.reads

/-- Calls of `processData` for the connection at index `i` as long as bytes are left, and what each of them wrote.  A call
that blocks has consumed all bytes and changes nothing. -/
def serve (seg : Nat → Nat) (crc : Nat → U32) : Nat → Server → Nat → Stream → Server × List (List (List Byte))
  | 0, srv, _, _ => (srv, [])
  | fuel + 1, srv, i, w =>
    if w.pending = [] then (srv, [])
    else
      match processData (streamSock seg crc) srv i { w with sent := [] } with
      | none => (srv, [])
      | some (srv', w', _) =>
        let r := serve seg crc fuel srv' i w'
        (r.1, w'.sent :: r.2)

/-- What is seen of a run: the replies, the client lists and the flags of the connections. -/
structure Outcome where
  replies : List (List (List Byte))
  clients : ServiceId → List SockaddrIn
  flags : List U32

/-- The outcome of the messages on the connection at index `i`; each call consumes a byte at least. -/
def outcome (seg : Nat → Nat) (crc : Nat → U32) (srv : Server) (i : Nat) (messages : List (List Byte)) : Outcome :=
  let r := serve seg crc messages.flatten.length srv i ⟨messages.flatten, 0, []⟩
  ⟨r.2.filter fun sent => !sent.isEmpty, r.1.clients, r.1.mConnClients.map (·.flags)⟩

/-! ### Messages -/

def IsMessage (k : MsgKind) (m : List Byte) : Prop :=
  m.length = k.expected.size ∧ k.expected.accepts (MsgHeader.ofBytes (m.take msgHeaderSize))

/-- An init message and then messages of any kind. -/
def WellFormed (messages : List (List Byte)) : Prop :=
  (∃ m ∈ messages.head?, IsMessage .init m) ∧ ∀ m ∈ messages, ∃ k, IsMessage k m

/-- From the `r`-th read on, the segmentation cuts neither the header nor the rest of a message. -/
def Whole (seg : Nat → Nat) : Nat → List (List Byte) → Prop
  | _, [] => True
  | r, m :: messages =>
    msgHeaderSize ≤ seg r ∧ m.length - msgHeaderSize ≤ seg (r + 1) ∧ Whole seg (r + 2) messages

/-- The connection at index `i` has its init flag. -/
def Initialized (srv : Server) (i : Nat) : Prop :=
  ∃ c, srv.mConnClients[i]? = some c ∧ c.flags &&& rcciClientFlagInit ≠ 0

theorem IsMessage.headerKind {k : MsgKind} {m : List Byte} (hm : IsMessage k m) {srv : Server} {i : Nat} {c : ClientInfo}
    (hc : srv.mConnClients[i]? = some c) (hk : k = .init ∨ Initialized srv i) :
    headerKind c (MsgHeader.ofBytes (m.take msgHeaderSize)) = some k := by
  have ht : (MsgHeader.ofBytes (m.take msgHeaderSize)).type = k.expected.type := by
    have ha := hm.2
    simp only [Expected.accepts, Bool.and_eq_true, beq_iff_eq] at ha
    exact ha.1.1
  have hf : k = .init ∨ c.flags &&& rcciClientFlagInit ≠ 0 := by
    rcases hk with hk | ⟨c', hc', hf⟩
    · exact Or.inl hk
    · rw [hc, Option.some.injEq] at hc'
      exact Or.inr (hc' ▸ hf)
  unfold Daemon.headerKind
  rw [ht]
  rcases hf with rfl | hf
  · exact if_pos (Or.inr rfl)
  · cases k with
    | init => exact if_pos (Or.inr rfl)
    | regService => rw [if_neg (not_or.2 ⟨hf, by decide⟩), if_pos (by decide)]
    | unregService => rw [if_neg (not_or.2 ⟨hf, by decide⟩), if_neg (by decide), if_pos (by decide)]

theorem MsgKind.headerSize_lt (k : MsgKind) : msgHeaderSize < k.expected.size := by
  cases k <;> decide

/-! ### Replies -/

/-- The length of what a call writes first. -/
def headSize : List (List Byte) → Nat
  | [] => 0
  | reply :: _ => reply.length

def cost (sents : List (List (List Byte))) : Nat := (sents.map headSize).sum

theorem cost_filter (sents : List (List (List Byte))) : cost (sents.filter fun sent => !sent.isEmpty) = cost sents := by
  unfold cost
  induction sents with
  | nil => rfl
  | cons sent sents ih =>
    cases sent with
    | nil => simpa [headSize] using ih
    | cons reply rest => simpa using ih

theorem initialized_orFlags {srv : Server} {i : Nat} (flag : U32) (h : Initialized srv i) :
    Initialized (srv.orFlags i flag) i := by
  obtain ⟨c, hc, hf⟩ := h
  refine ⟨{ c with flags := c.flags ||| flag }, by simp [Server.orFlags, hc], fun h0 => hf ?_⟩
  simp only [BitVec.and_or_distrib_right] at h0
  exact (BitVec.or_eq_zero_iff.1 h0).1

/-- A handler that has read its message writes a reply of the message's length first, and the connection is initialized
from then on. -/
theorem answer_stream (seg : Nat → Nat) (crc : Nat → U32) {srv : Server} {i : Nat} {c : ClientInfo}
    (hc : srv.mConnClients[i]? = some c) (k : MsgKind) (body : List Byte) (w : Stream) :
    ∃ srv' sent ret, answer (streamSock seg crc) srv i c k body w = (srv', { w with sent := w.sent ++ sent }, ret) ∧
      headSize sent = k.expected.size ∧ (k = .init ∨ Initialized srv i → Initialized srv' i) := by
  have hwrite (bytes : List Byte) (w : Stream) : (streamSock seg crc).write c.fd bytes w =
      ((bytes.length : Int), { w with sent := w.sent ++ [bytes] }) := rfl
  cases k with
  | init =>
    simp only [answer, answerInit, hwrite, MsgInit.length_toBytes, if_true]
    refine ⟨_, _, _, rfl, rfl, fun _ =>
      ⟨{ c with flags := c.flags ||| rcciClientFlagInit }, by simp [Server.orFlags, hc], fun h0 => ?_⟩⟩
    simp only [BitVec.and_or_distrib_right] at h0
    exact absurd (BitVec.or_eq_zero_iff.1 h0).2 (by decide)
  | regService =>
    have hinit : Initialized srv i →
        Initialized (regService srv i (receivedReg body ((streamSock seg crc).crc w))).1 i := by
      intro h
      rcases regService_cases srv i (receivedReg body ((streamSock seg crc).crc w)) with hreg | ⟨s, hreg⟩
      · rw [hreg]
        exact h
      · rw [hreg]
        exact initialized_orFlags _ h
    simp only [answer, answerReg, hwrite, MsgRegService.length_toBytes, textBytes, List.length_map, if_true]
    split
    · exact ⟨_, [_, _], _, by rw [List.append_assoc]; rfl, rfl, fun h => hinit (h.resolve_left (by simp))⟩
    · exact ⟨_, _, _, rfl, rfl, fun h => hinit (h.resolve_left (by simp))⟩
  | unregService =>
    have hinit : Initialized srv i →
        Initialized (unregService srv (receivedReg body ((streamSock seg crc).crc w))).1 i := by
      intro h
      unfold unregService
      split
      · split <;> exact h
      · exact h
    simp only [answer, answerUnreg, hwrite, MsgRegService.length_toBytes, if_true]
    exact ⟨_, _, _, rfl, rfl, fun h => hinit (h.resolve_left (by simp))⟩

/-! ### Reads -/

/-- What a `read` returns was pending; if it is all that was asked for, the segmentation allowed it. -/
theorem read_stream {seg : Nat → Nat} {crc : Nat → U32} {fd : Int} {n : Nat} {w w' : Stream} {r : ReadResult}
    (hn : 1 < n) (h : (streamSock seg crc).read fd n w = some (r, w')) :
    ∃ bytes, r = .got bytes ∧ bytes ≠ [] ∧ bytes.length + w'.pending.length = w.pending.length ∧
      w'.reads = w.reads + 1 ∧ w'.sent = w.sent ∧
        (bytes.length = n → n ≤ seg w.reads ∧ bytes = w.pending.take n) := by
  simp only [streamSock, Option.ite_none_left_eq_some, Option.some.injEq, Prod.mk.injEq] at h
  obtain ⟨hne, rfl, rfl⟩ := h
  have hpos : 0 < w.pending.length := List.length_pos_iff.2 hne
  have htaken : 0 < taken seg n w ∧ taken seg n w ≤ w.pending.length := by
    unfold taken
    omega
  have hlen : (w.pending.take (taken seg n w)).length = taken seg n w := by
    rw [List.length_take]
    omega
  refine ⟨_, rfl, ?_, ?_, rfl, rfl, ?_⟩
  · rw [← List.length_pos_iff, hlen]
    exact htaken.1
  · rw [hlen, List.length_drop]
    omega
  · rw [hlen]
    intro heq
    have hseg : n ≤ seg w.reads := by
      unfold taken at heq
      omega
    exact ⟨hseg, by rw [heq]⟩

theorem read_whole {seg : Nat → Nat} (crc : Nat → U32) (fd : Int) {r : Nat} {bytes : List Byte} (rest : List Byte)
    (sent : List (List Byte)) (hb : 0 < bytes.length) (hs : bytes.length ≤ seg r) :
    (streamSock seg crc).read fd bytes.length ⟨bytes ++ rest, r, sent⟩ = some (.got bytes, ⟨rest, r + 1, sent⟩) := by
  have hne : bytes ++ rest ≠ [] := by
    rw [← List.length_pos_iff, List.length_append]
    omega
  have htaken : taken seg bytes.length ⟨bytes ++ rest, r, sent⟩ = bytes.length := by
    unfold taken
    simp only [List.length_append]
    omega
  simp only [streamSock, if_neg hne, htaken, List.take_left, List.drop_left]

/-! ### Calls -/

/-- A handler that writes has read its message whole. -/
theorem processMsg_stream {seg : Nat → Nat} {crc : Nat → U32} {k : MsgKind} {srv srv' : Server} {i : Nat}
    {c : ClientInfo} {header : MsgHeader} {w w' : Stream} {ret : Int} (hc : srv.mConnClients[i]? = some c)
    (hw : w.sent = []) (h : processMsg (streamSock seg crc) k srv i c header w = some (srv', w', ret)) :
    (w'.sent = [] ∧ w'.pending.length ≤ w.pending.length) ∨
      (k.expected.remBytes ≤ seg w.reads ∧ headSize w'.sent = k.expected.size ∧
        k.expected.remBytes + w'.pending.length = w.pending.length) := by
  rcases processMsg_read h with ⟨-, r, v, hr, hout⟩ | ⟨-, -, rfl⟩
  · have hrem : 1 < k.expected.remBytes := by cases k <;> decide
    obtain ⟨bytes, rfl, -, hlen, -, hsent, hall⟩ := read_stream hrem hr
    rcases hout with ⟨hcount, h⟩ | ⟨-, -, hv⟩
    · right
      have hcount : bytes.length = k.expected.remBytes := by
        simp only [ReadResult.count] at hcount
        omega
      obtain ⟨srv₁, sent, ret₁, ha, hhead, -⟩ := answer_stream seg crc hc k bytes v
      simp only [ReadResult.bytes] at h
      rw [ha] at h
      cases h
      refine ⟨(hall hcount).1, ?_, by simpa only [hcount] using hlen⟩
      rw [hsent, hw]
      exact hhead
    · left
      obtain rfl : w' = v := hv
      exact ⟨by rw [hsent, hw], by omega⟩
  · left
    exact ⟨hw, Nat.le_refl _⟩

/-- Every call consumes bytes, and a call that writes has read a whole message, as long as its reply's head. -/
theorem processData_stream {seg : Nat → Nat} {crc : Nat → U32} {srv srv' : Server} {i : Nat} {w w' : Stream} {ret : Int}
    (hw : w.sent = []) (h : processData (streamSock seg crc) srv i w = some (srv', w', ret)) :
    w'.pending.length < w.pending.length ∧
      (w'.sent = [] ∨
        ∃ k c, srv.mConnClients[i]? = some c ∧ headerKind c (MsgHeader.ofBytes (w.pending.take msgHeaderSize)) = some k ∧
          msgHeaderSize ≤ seg w.reads ∧ k.expected.remBytes ≤ seg (w.reads + 1) ∧
            headSize w'.sent + w'.pending.length = w.pending.length) := by
  unfold processData at h
  obtain ⟨c, hc, h⟩ := Option.bind_eq_some_iff.1 h
  obtain ⟨⟨r, v⟩, hr, h⟩ := Option.bind_eq_some_iff.1 h
  obtain ⟨bytes, rfl, hne, hlen, hreads, hsent, hall⟩ := read_stream (by decide) hr
  have hpos : 0 < bytes.length := List.length_pos_iff.2 hne
  simp only [if_neg hne] at h
  split at h
  · next hl =>
    obtain ⟨hseg, hbytes⟩ := hall hl
    rw [processHeader_eq] at h
    cases hk : headerKind c (MsgHeader.ofBytes bytes) with
    | none =>
      rw [hk] at h
      cases h
      exact ⟨by omega, Or.inl (by rw [hsent, hw])⟩
    | some k =>
      rw [hk] at h
      have hsize := k.headerSize_lt
      rcases processMsg_stream hc (by rw [hsent, hw]) h with ⟨hs, hp⟩ | ⟨hrem, hhead, hp⟩
      · exact ⟨by omega, Or.inl hs⟩
      · rw [hreads] at hrem
        unfold Expected.remBytes at hp
        exact ⟨by omega, Or.inr ⟨k, c, hc, by rw [← hbytes]; exact hk, hseg, hrem, by omega⟩⟩
  · cases h
    exact ⟨by omega, Or.inl (by rw [hsent, hw])⟩

/-- The next two reads on the descriptor return the header of the message and its rest. -/
def Receives {σ : Type} (sk : Sock σ) (fd : Int) (m : List Byte) (w w' : σ) : Prop :=
  ∃ v, sk.read fd msgHeaderSize w = some (.got (m.take msgHeaderSize), v) ∧
    sk.read fd (m.length - msgHeaderSize) v = some (.got (m.drop msgHeaderSize), w')

/-- A call that receives a message answers it. -/
theorem processData_received {σ : Type} {sk : Sock σ} {srv : Server} {i : Nat} {c : ClientInfo} {k : MsgKind}
    {m : List Byte} {w w' : σ} (hc : srv.mConnClients[i]? = some c) (hm : IsMessage k m)
    (hk : k = .init ∨ Initialized srv i) (h : Receives sk c.fd m w w') :
    processData sk srv i w = some (answer sk srv i c k (m.drop msgHeaderSize) w') := by
  obtain ⟨v, hread₁, hread₂⟩ := h
  have hsize := k.headerSize_lt
  have hlen := hm.1
  have hhead : (m.take msgHeaderSize).length = msgHeaderSize := by
    rw [List.length_take]
    omega
  have hbody : (m.drop msgHeaderSize).length = k.expected.remBytes := by
    rw [List.length_drop, hlen]
    rfl
  have hne : m.take msgHeaderSize ≠ [] := by
    rw [← List.length_pos_iff, hhead]
    decide
  rw [← List.length_drop, hbody] at hread₂
  unfold processData
  simp only [hc, Option.bind_some, hread₁, if_neg hne, hhead, if_true]
  rw [processHeader_eq, hm.headerKind hc hk]
  simp only [processMsg, readMessage, hm.2, if_true, hread₂, Option.map_some, ReadResult.count, ReadResult.bytes, hbody]

/-- A segmentation that does not cut the message lets it be received. -/
theorem receives_stream {seg : Nat → Nat} (crc : Nat → U32) (fd : Int) {k : MsgKind} {m : List Byte}
    (hm : IsMessage k m) {r : Nat} (rest : List Byte) (h₁ : msgHeaderSize ≤ seg r)
    (h₂ : m.length - msgHeaderSize ≤ seg (r + 1)) :
    Receives (streamSock seg crc) fd m ⟨m ++ rest, r, []⟩ ⟨rest, r + 2, []⟩ := by
  have hsize := k.headerSize_lt
  have hlen := hm.1
  have h16 : 0 < msgHeaderSize := by decide
  have hhead : (m.take msgHeaderSize).length = msgHeaderSize := by
    rw [List.length_take]
    omega
  have hbody : (m.drop msgHeaderSize).length = m.length - msgHeaderSize := List.length_drop
  refine ⟨⟨m.drop msgHeaderSize ++ rest, r + 1, []⟩, ?_, ?_⟩
  · have h := read_whole crc fd (m.drop msgHeaderSize ++ rest) [] (hhead ▸ h16) (hhead ▸ h₁)
    rwa [← List.append_assoc, List.take_append_drop, hhead] at h
  · have h := read_whole crc fd rest [] (hbody ▸ (by omega)) (hbody ▸ h₂)
    rwa [hbody] at h

/-- A call that finds a message and reads it whole answers it. -/
theorem processData_answer {seg : Nat → Nat} (crc : Nat → U32) {srv : Server} {i : Nat} {c : ClientInfo} {k : MsgKind}
    {m : List Byte} (hc : srv.mConnClients[i]? = some c) (hm : IsMessage k m) (hk : k = .init ∨ Initialized srv i)
    {r : Nat} (rest : List Byte) (h₁ : msgHeaderSize ≤ seg r) (h₂ : m.length - msgHeaderSize ≤ seg (r + 1)) :
    processData (streamSock seg crc) srv i ⟨m ++ rest, r, []⟩ =
      some (answer (streamSock seg crc) srv i c k (m.drop msgHeaderSize) ⟨rest, r + 2, []⟩) :=
  processData_received hc hm hk (receives_stream crc c.fd hm rest h₁ h₂)

/-- A call that finds a message and reads it whole consumes it and replies as long, in the same way under every
segmentation. -/
theorem processData_message (crc : Nat → U32) {srv : Server} {i : Nat} {c : ClientInfo} {k : MsgKind} {m : List Byte}
    (hc : srv.mConnClients[i]? = some c) (hm : IsMessage k m) (hk : k = .init ∨ Initialized srv i) (r : Nat)
    (rest : List Byte) :
    ∃ srv' sent ret, headSize sent = m.length ∧ Initialized srv' i ∧
      ∀ seg, msgHeaderSize ≤ seg r → m.length - msgHeaderSize ≤ seg (r + 1) →
        processData (streamSock seg crc) srv i ⟨m ++ rest, r, []⟩ = some (srv', ⟨rest, r + 2, sent⟩, ret) := by
  obtain ⟨srv', sent, ret, ha, hsent, hinit⟩ := answer_stream id crc hc k (m.drop msgHeaderSize) ⟨rest, r + 2, []⟩
  refine ⟨srv', sent, ret, hsent.trans hm.1.symm, hinit hk, fun seg h₁ h₂ => ?_⟩
  rw [processData_answer crc hc hm hk rest h₁ h₂, ← List.nil_append sent, ← ha]
  -- the answer depends on the writes and the stack, not on the segmentation
  cases k <;> rfl

/-! ### Runs -/

/-- The connection is there, and it takes the messages in their order. -/
def Ready (srv : Server) (i : Nat) (messages : List (List Byte)) : Prop :=
  (∃ c, srv.mConnClients[i]? = some c) ∧ (∀ m ∈ messages, ∃ k, IsMessage k m) ∧
    (Initialized srv i ∨ ∀ m ∈ messages.head?, IsMessage .init m)

theorem Ready.head {srv : Server} {i : Nat} {m : List Byte} {messages : List (List Byte)}
    (h : Ready srv i (m :: messages)) :
    ∃ c k, srv.mConnClients[i]? = some c ∧ IsMessage k m ∧ (k = .init ∨ Initialized srv i) := by
  obtain ⟨⟨c, hc⟩, hall, hinit⟩ := h
  rcases hinit with hinit | hinit
  · obtain ⟨k, hk⟩ := hall m List.mem_cons_self
    exact ⟨c, k, hc, hk, Or.inr hinit⟩
  · exact ⟨c, .init, hc, hinit m rfl, Or.inl rfl⟩

theorem Ready.tail {srv srv' : Server} {i : Nat} {m : List Byte} {messages : List (List Byte)}
    (h : Ready srv i (m :: messages)) (hinit : Initialized srv' i) : Ready srv' i messages := by
  obtain ⟨c, hc, -⟩ := id hinit
  exact ⟨⟨c, hc⟩, fun m' hm' => h.2.1 m' (List.mem_cons_of_mem _ hm'), Or.inl hinit⟩

theorem serve_nil (seg : Nat → Nat) (crc : Nat → U32) (fuel : Nat) (srv : Server) (i r : Nat) (s : List (List Byte)) :
    serve seg crc fuel srv i ⟨[], r, s⟩ = (srv, []) := by
  cases fuel <;> rfl

theorem serve_succ {seg : Nat → Nat} {crc : Nat → U32} {srv srv' : Server} {i : Nat} {w w' : Stream} {ret : Int}
    (fuel : Nat) (hw : w.pending ≠ [])
    (h : processData (streamSock seg crc) srv i { w with sent := [] } = some (srv', w', ret)) :
    serve seg crc (fuel + 1) srv i w =
      ((serve seg crc fuel srv' i w').1, w'.sent :: (serve seg crc fuel srv' i w').2) := by
  rw [serve, if_neg hw, h]

theorem serve_succ_none {seg : Nat → Nat} {crc : Nat → U32} {srv : Server} {i : Nat} {w : Stream} (fuel : Nat)
    (h : processData (streamSock seg crc) srv i { w with sent := [] } = none) :
    serve seg crc (fuel + 1) srv i w = (srv, []) := by
  rw [serve, h]
  split <;> rfl

theorem flatten_cons_ne_nil {k : MsgKind} {m : List Byte} (hm : IsMessage k m) (messages : List (List Byte)) :
    (m :: messages).flatten ≠ [] := by
  have hsize := k.headerSize_lt
  have hlen := hm.1
  rw [← List.length_pos_iff, List.flatten_cons, List.length_append]
  omega

/-- The replies of a run are at most as long as its bytes. -/
theorem cost_serve_le (seg : Nat → Nat) (crc : Nat → U32) (fuel : Nat) (srv : Server) (i : Nat) (w : Stream) :
    cost (serve seg crc fuel srv i w).2 ≤ w.pending.length := by
  induction fuel generalizing srv w with
  | zero => exact Nat.zero_le _
  | succ fuel ih =>
    by_cases hw : w.pending = []
    · rw [serve, if_pos hw]
      exact Nat.zero_le _
    · cases h : processData (streamSock seg crc) srv i { w with sent := [] } with
      | none =>
        rw [serve_succ_none fuel h]
        exact Nat.zero_le _
      | some out =>
        obtain ⟨srv', w', ret⟩ := out
        rw [serve_succ fuel hw h]
        have hrest := ih srv' w'
        obtain ⟨hlt, hs | ⟨k, c, -, -, -, -, hhead⟩⟩ := processData_stream rfl h
        · simp only [cost, List.map_cons, List.sum_cons, hs, headSize] at hrest ⊢
          simp only at hlt
          omega
        · simp only [cost, List.map_cons, List.sum_cons] at hrest ⊢
          simp only at hhead
          omega

/-- A call for each byte is enough: more fuel changes nothing. -/
theorem serve_fuel (seg : Nat → Nat) (crc : Nat → U32) {fuel : Nat} (srv : Server) (i : Nat) (w : Stream)
    (hf : w.pending.length ≤ fuel) : serve seg crc (fuel + 1) srv i w = serve seg crc fuel srv i w := by
  induction fuel generalizing srv w with
  | zero =>
    have hw : w.pending = [] := List.length_eq_zero_iff.1 (by omega)
    simp [serve, hw]
  | succ fuel ih =>
    by_cases hw : w.pending = []
    · rw [serve, serve, if_pos hw, if_pos hw]
    · cases h : processData (streamSock seg crc) srv i { w with sent := [] } with
      | none => rw [serve_succ_none _ h, serve_succ_none _ h]
      | some out =>
        obtain ⟨srv', w', ret⟩ := out
        have hlt : w'.pending.length < w.pending.length := (processData_stream rfl h).1
        rw [serve_succ _ hw h, serve_succ _ hw h, ih srv' w' (by omega)]

/-- If no read is short, each call takes the next message, whatever the segmentation. -/
theorem serve_congr {seg seg' : Nat → Nat} (crc : Nat → U32) {messages : List (List Byte)} {srv : Server} {i r : Nat}
    (hr : Ready srv i messages) (h : Whole seg r messages) (h' : Whole seg' r messages) (fuel : Nat)
    (s : List (List Byte)) :
    serve seg crc fuel srv i ⟨messages.flatten, r, s⟩ = serve seg' crc fuel srv i ⟨messages.flatten, r, s⟩ := by
  induction messages generalizing srv r s fuel with
  | nil => rw [List.flatten_nil, serve_nil, serve_nil]
  | cons m messages ih =>
    cases fuel with
    | zero => rfl
    | succ fuel =>
      obtain ⟨c, k, hc, hm, hk⟩ := hr.head
      obtain ⟨srv', sent, ret, -, hinit, hcall⟩ := processData_message crc hc hm hk r messages.flatten
      have hne := flatten_cons_ne_nil hm messages
      rw [serve_succ fuel hne (hcall seg h.1 h.2.1), serve_succ fuel hne (hcall seg' h'.1 h'.2.1),
        ih (hr.tail hinit) h.2.2 h'.2.2]

/-- If no read is short, the replies are as long as the messages. -/
theorem cost_serve {seg : Nat → Nat} (crc : Nat → U32) {messages : List (List Byte)} {srv : Server} {i r : Nat}
    (hr : Ready srv i messages) (h : Whole seg r messages) {fuel : Nat} (hf : messages.flatten.length ≤ fuel)
    (s : List (List Byte)) :
    cost (serve seg crc fuel srv i ⟨messages.flatten, r, s⟩).2 = messages.flatten.length := by
  induction messages generalizing srv r s fuel with
  | nil =>
    rw [List.flatten_nil, serve_nil]
    rfl
  | cons m messages ih =>
    obtain ⟨c, k, hc, hm, hk⟩ := hr.head
    obtain ⟨srv', sent, ret, hhead, hinit, hcall⟩ := processData_message crc hc hm hk r messages.flatten
    have hne := flatten_cons_ne_nil hm messages
    have hsize := k.headerSize_lt
    have hlen := hm.1
    rw [List.flatten_cons, List.length_append] at hf
    cases fuel with
    | zero => omega
    | succ fuel =>
      have hrest : cost (serve seg crc fuel srv' i ⟨messages.flatten, r + 2, sent⟩).2 = messages.flatten.length :=
        ih (hr.tail hinit) h.2.2 (by omega) sent
      rw [serve_succ fuel hne (hcall seg h.1 h.2.1), List.flatten_cons, List.length_append]
      simp only [cost, List.map_cons, List.sum_cons] at hrest ⊢
      rw [hhead, hrest]

/-- If the replies are as long as the messages, no read was short: a call without a reply wastes bytes. -/
theorem whole_of_cost {seg : Nat → Nat} {crc : Nat → U32} {messages : List (List Byte)} {srv : Server} {i r fuel : Nat}
    {s : List (List Byte)} (hr : Ready srv i messages)
    (h : cost (serve seg crc fuel srv i ⟨messages.flatten, r, s⟩).2 = messages.flatten.length) : Whole seg r messages := by
  induction messages generalizing srv r s fuel with
  | nil => trivial
  | cons m messages ih =>
    obtain ⟨c, k, hc, hm, hk⟩ := hr.head
    have hne := flatten_cons_ne_nil hm messages
    have hpos := List.length_pos_iff.2 hne
    cases fuel with
    | zero =>
      rw [← h] at hpos
      cases hpos
    | succ fuel =>
      cases hd : processData (streamSock seg crc) srv i ⟨(m :: messages).flatten, r, []⟩ with
      | none =>
        rw [serve_succ_none fuel hd] at h
        rw [← h] at hpos
        cases hpos
      | some out =>
        obtain ⟨srv', w', ret⟩ := out
        rw [serve_succ fuel hne hd] at h
        simp only [cost, List.map_cons, List.sum_cons] at h
        have hrest := cost_serve_le seg crc fuel srv' i w'
        unfold cost at hrest
        obtain ⟨hlt, hs | ⟨k', c', hc', hkind, h₁, h₂, -⟩⟩ := processData_stream rfl hd
        · -- nothing was written: the bytes that are left cannot make up for those consumed
          rw [hs, headSize] at h
          simp only at hlt
          omega
        · have hlen := hm.1
          have hsize := k.headerSize_lt
          have hk' : k' = k := by
            rw [hc, Option.some.injEq] at hc'
            subst hc'
            simp only [List.flatten_cons] at hkind
            rw [List.take_append_of_le_length (by omega), hm.headerKind hc hk, Option.some.injEq] at hkind
            exact hkind.symm
          subst hk'
          have h₂' : m.length - msgHeaderSize ≤ seg (r + 1) := by
            rw [hlen]
            exact h₂
          obtain ⟨srv₁, sent, ret₁, hhead, hinit, hcall⟩ := processData_message crc hc hm hk r messages.flatten
          have hd' := hcall seg h₁ h₂'
          rw [List.flatten_cons] at hd
          rw [hd, Option.some.injEq, Prod.mk.injEq, Prod.mk.injEq] at hd'
          obtain ⟨rfl, rfl, -⟩ := hd'
          rw [hhead, List.flatten_cons, List.length_append] at h
          exact ⟨h₁, h₂', ih (hr.tail hinit) (Nat.add_left_cancel h)⟩

theorem WellFormed.ready {messages : List (List Byte)} (h : WellFormed messages) {srv : Server} {i : Nat} {c : ClientInfo}
    (hc : srv.mConnClients[i]? = some c) : Ready srv i messages := by
  obtain ⟨⟨m, hm, hinit⟩, hall⟩ := h
  refine ⟨⟨c, hc⟩, hall, Or.inr fun m' hm' => ?_⟩
  rw [Option.mem_def.1 hm, Option.mem_some_iff] at hm'
  exact hm' ▸ hinit

/-- A segmentation leads to the outcome of those that cut no message within its header or its rest exactly if it is one
of them. -/
theorem outcome_eq_iff_whole (crc : Nat → U32) {srv : Server} {i : Nat} {c : ClientInfo}
    (hc : srv.mConnClients[i]? = some c) {messages : List (List Byte)} (hm : WellFormed messages) {seg seg' : Nat → Nat}
    (h' : Whole seg' 0 messages) :
    outcome seg crc srv i messages = outcome seg' crc srv i messages ↔ Whole seg 0 messages := by
  have hr := hm.ready hc
  constructor
  · intro h
    have hcost : cost (outcome seg crc srv i messages).replies = cost (outcome seg' crc srv i messages).replies := by
      rw [h]
    unfold outcome at hcost
    simp only [cost_filter] at hcost
    rw [cost_serve crc hr h' (Nat.le_refl _)] at hcost
    exact whole_of_cost hr hcost
  · intro h
    unfold outcome
    rw [serve_congr crc hr h h']

/-- The opened server with one connection, which is not initialized yet. -/
def accepted : Server := (started openEnv).addClient 6 true []

theorem wellFormed_initMessage : WellFormed [initMessage] := by
  have hm : IsMessage .init initMessage := ⟨rfl, by decide⟩
  exact ⟨⟨initMessage, rfl, hm⟩, fun m h => ⟨.init, by rwa [List.mem_singleton.1 h]⟩⟩

theorem outcome_eq_iff_whole_initMessage :
    outcome (fun _ => 4) (fun _ => 0) accepted 0 [initMessage] =
        outcome (fun _ => msgInitSize) (fun _ => 0) accepted 0 [initMessage] ↔
      Whole (fun _ => 4) 0 [initMessage] :=
  outcome_eq_iff_whole (c := ⟨6, rcciClientFlagNone⟩) (fun _ => 0) (by decide) wellFormed_initMessage
    ⟨by decide, by decide, trivial⟩

/-- In pieces of four bytes the init message gets no reply. -/
theorem outcome_ne_initMessage :
    outcome (fun _ => 4) (fun _ => 0) accepted 0 [initMessage] ≠
      outcome (fun _ => msgInitSize) (fun _ => 0) accepted 0 [initMessage] := by
  intro h
  have hreplies : (outcome (fun _ => 4) (fun _ => 0) accepted 0 [initMessage]).replies.length =
      (outcome (fun _ => msgInitSize) (fun _ => 0) accepted 0 [initMessage]).replies.length := by rw [h]
  revert hreplies
  decide

end RcCarControl.Daemon
