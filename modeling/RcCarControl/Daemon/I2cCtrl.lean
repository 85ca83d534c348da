import Mathlib.Algebra.Order.Group.Nat
import RcCarControl.Lib.LittleEndian

/-!
# Reads from the camera's registers

`rccI2cCtrl::read` of `sw/daemon/rcc_i2c_ctrl.cpp` reads byte by byte: it writes the address of the register and reads
one byte.  The two overloads differ in the bytes of the address only and are one loop.  A negative result of the write
ends it, but of the reads the loop tests the sum of the results so far: a failed read is seen only if until then at
least as many reads returned -1 as returned 1 (`Noticed`).  So a call that fails after its first byte may still return a
number of bytes (`i2c_read_right_iff`).
-/

namespace RcCarControl.Daemon.I2cCtrl

open LittleEndian (Byte)

/-- The system calls made for one byte, and what the device answers to the bytes of the address. -/
structure ByteCalls where
  /-- The result of `::write`. -/
  wrote : Int
  /-- The result of `::read` of one byte. -/
  got : Int
  answer : List Byte → Byte
  got_range : got = 1 ∨ got = 0 ∨ got = -1

/-- `write`, with the result of `::write`. -/
def write (mDevFd wrote : Int) : Int :=
  if mDevFd ≤ 0 then -1
  else if wrote < 0 then -1
  else wrote

section Loop

variable (mDevFd : Int) (byteAddr : Nat → List Byte) (calls : Nat → ByteCalls)

/-- `::read(mDevFd, &data[i], 1)`. -/
def fill (i : Nat) (data : List Byte) : List Byte :=
  if (calls i).got = 1 then data.set i ((calls i).answer (byteAddr i)) else data

/-- `left` turns of the loop from `i` on. -/
def readLoop : (left i : Nat) → (bytes : Int) → (data : List Byte) → Int × List Byte
  | 0, _, bytes, data => (bytes, data)
  | left + 1, i, bytes, data =>
    if write mDevFd (calls i).wrote < 0 then (-1, data)
    else
      let data := fill byteAddr calls i data
      let bytes := bytes + (calls i).got
      if bytes ≤ 0 then (-1, data) else readLoop left (i + 1) bytes data

/-- The turns of `for(int i = 0; i < (int)data.size(); i++)`. -/
def turns (size : Nat) : Nat := (BitVec.ofNat 32 size).toInt.toNat

/-- `read` with the bytes of the `i`-th address. -/
def read (data : List Byte) : Int × List Byte :=
  if mDevFd ≤ 0 then (-1, data) else readLoop mDevFd byteAddr calls (turns data.length) 0 0 data

end Loop

/-- `read(const uint8_t regAddr, std::vector<uint8_t> &data)`. -/
def read8 (mDevFd : Int) (regAddr : BitVec 8) (calls : Nat → ByteCalls) (data : List Byte) : Int × List Byte :=
  read mDevFd (fun i => [BitVec.ofNat 8 (regAddr.toNat + i)]) calls data

/-- `read(const uint16_t regAddr, std::vector<uint8_t> &data)`. -/
def read16 (mDevFd : Int) (regAddr : BitVec 16) (calls : Nat → ByteCalls) (data : List Byte) : Int × List Byte :=
  read mDevFd (fun i => [BitVec.ofNat 8 ((regAddr.toNat + i) >>> 8 &&& 0xFF),
    BitVec.ofNat 8 ((regAddr.toNat + i) >>> 0 &&& 0xFF)]) calls data

/-- The overloads for one byte, with the vector overload they call. -/
def readOne (readVector : List Byte → Int × List Byte) (data : Byte) : Int × Byte :=
  let dArray := readVector [0]
  if dArray.1 < 0 then (-1, data) else (1, dArray.2.headD 0)

/-- `read(const uint8_t regAddr, uint8_t &data)`. -/
def read8One (mDevFd : Int) (regAddr : BitVec 8) (call : ByteCalls) (data : Byte) : Int × Byte :=
  readOne (read8 mDevFd regAddr fun _ => call) data

/-- `read(const uint16_t regAddr, uint8_t &data)`. -/
def read16One (mDevFd : Int) (regAddr : BitVec 16) (call : ByteCalls) (data : Byte) : Int × Byte :=
  readOne (read16 mDevFd regAddr fun _ => call) data

/-! ### Reading right -/

/-- The bytes that select the register `a` of 16 bits. -/
def addrBytes (a : BitVec 16) : List Byte := [a.extractLsb' 8 8, a.extractLsb' 0 8]

/-- Both calls for a byte succeed.  A negative result of `write` is a failure; which of the others are is up to `sent`,
which may ask for the number of bytes of the address. -/
def Succeeds (sent : Int → Bool) (mDevFd : Int) (c : ByteCalls) : Prop :=
  (0 ≤ write mDevFd c.wrote ∧ sent (write mDevFd c.wrote) = true) ∧ c.got = 1

/-- What `read` is to return for a vector of `size` bytes and the addresses `addr`. -/
def ReadsRight (sent : Int → Bool) (mDevFd : Int) (addr : Nat → List Byte) (calls : Nat → ByteCalls) (size : Nat)
    (r : Int × List Byte) : Prop :=
  ((∀ i < size, Succeeds sent mDevFd (calls i)) →
    r.1 = size ∧ ∀ i < size, r.2[i]? = some ((calls i).answer (addr i))) ∧
  ((¬ ∀ i < size, Succeeds sent mDevFd (calls i)) → r.1 = -1)

/-- How many of the first `n` reads returned `ret`. -/
def returned (calls : Nat → ByteCalls) (ret : Int) (n : Nat) : Nat :=
  (List.range n).countP fun i => (calls i).got = ret

/-- The loop ends at byte `i`. -/
def Noticed (mDevFd : Int) (calls : Nat → ByteCalls) (i : Nat) : Prop :=
  write mDevFd (calls i).wrote < 0 ∨ returned calls 1 (i + 1) ≤ returned calls (-1) (i + 1)

/-- The calls for which `read` does right. -/
def FailuresSeen (sent : Int → Bool) (mDevFd : Int) (calls : Nat → ByteCalls) (size : Nat) : Prop :=
  mDevFd ≤ 0 ∨ (size < 2 ^ 31 ∧ ∀ i < size, Succeeds sent mDevFd (calls i)) ∨
    ∃ i < turns size, Noticed mDevFd calls i

/-! ### The sum of the results -/

section Sum

variable (calls : Nat → ByteCalls)

/-- `bytes` after `n` turns: the reads that gave a byte less those that failed. -/
def balance (n : Nat) : Int := returned calls 1 n - returned calls (-1) n

theorem returned_succ (ret : Int) (n : Nat) :
    returned calls ret (n + 1) = returned calls ret n + if (calls n).got = ret then 1 else 0 := by
  simp [returned, List.range_succ, List.countP_append, List.countP_cons]

theorem balance_succ (n : Nat) : balance calls (n + 1) = balance calls n + (calls n).got := by
  rw [balance, balance, returned_succ, returned_succ]
  rcases (calls n).got_range with h | h | h <;> simp [h] <;> omega

theorem noticed_iff (mDevFd : Int) (i : Nat) :
    Noticed mDevFd calls i ↔ write mDevFd (calls i).wrote < 0 ∨ balance calls (i + 1) ≤ 0 := by
  rw [Noticed, balance]
  apply or_congr_right
  omega

variable {calls}

theorem balance_of_got {n : Nat} (h : ∀ i < n, (calls i).got = 1) : balance calls n = n := by
  induction n with
  | zero => rfl
  | succ n ih =>
    rw [balance_succ, ih fun i hi => h i (by omega), h n (by omega)]
    rfl

end Sum

theorem turns_le (size : Nat) : turns size ≤ size := by
  rw [turns, BitVec.toInt_eq_toNat_cond, BitVec.toNat_ofNat]
  split <;> omega

theorem turns_eq_iff {size : Nat} (h : 1 ≤ size) : turns size = size ↔ size < 2 ^ 31 := by
  rw [turns, BitVec.toInt_eq_toNat_cond, BitVec.toNat_ofNat]
  split <;> omega

/-! ### The loop -/

section Loop

variable {mDevFd : Int} {byteAddr : Nat → List Byte} {calls : Nat → ByteCalls}

/-- One turn at which the loop ends. -/
theorem readLoop_noticed {left i : Nat} {data : List Byte} (h : Noticed mDevFd calls i) :
    (readLoop mDevFd byteAddr calls (left + 1) i (balance calls i) data).1 = -1 := by
  rw [noticed_iff, balance_succ] at h
  unfold readLoop
  split
  · rfl
  · have hsum := h.resolve_left (by assumption)
    simp only [if_pos hsum]

/-- One turn at which it goes on. -/
theorem readLoop_step {left i : Nat} {data : List Byte} (h : ¬ Noticed mDevFd calls i) :
    readLoop mDevFd byteAddr calls (left + 1) i (balance calls i) data =
      readLoop mDevFd byteAddr calls left (i + 1) (balance calls (i + 1)) (fill byteAddr calls i data) := by
  rw [noticed_iff, not_or] at h
  rw [readLoop, if_neg h.1]
  simp only [← balance_succ, if_neg h.2]

/-- The loop returns -1 from the first byte on at which it notices a failure. -/
theorem readLoop_ends {left i j : Nat} {data : List Byte} (hi : i ≤ j) (hj : j < i + left)
    (h : Noticed mDevFd calls j) : (readLoop mDevFd byteAddr calls left i (balance calls i) data).1 = -1 := by
  induction left generalizing i data with
  | zero => omega
  | succ left ih =>
    by_cases hn : Noticed mDevFd calls i
    · exact readLoop_noticed hn
    · rw [readLoop_step hn]
      have hne : i ≠ j := by
        rintro rfl
        exact hn h
      exact ih (by omega) (by omega)

/-- The bytes filled in by the turns from `i` on. -/
def fillAll (byteAddr : Nat → List Byte) (calls : Nat → ByteCalls) : (left i : Nat) → List Byte → List Byte
  | 0, _, data => data
  | left + 1, i, data => fillAll byteAddr calls left (i + 1) (fill byteAddr calls i data)

/-- The loop that notices nothing runs to its end. -/
theorem readLoop_runs {left i : Nat} {data : List Byte}
    (h : ∀ j, i ≤ j → j < i + left → ¬ Noticed mDevFd calls j) :
    readLoop mDevFd byteAddr calls left i (balance calls i) data =
      (balance calls (i + left), fillAll byteAddr calls left i data) := by
  induction left generalizing i data with
  | zero => rfl
  | succ left ih =>
    rw [readLoop_step (h i (by omega) (by omega)), ih fun j hij hj => h j (by omega) (by omega),
      show i + 1 + left = i + (left + 1) by omega]
    rfl

theorem fill_getElem? {i j : Nat} {data : List Byte} (hi : i < data.length) (hgot : (calls i).got = 1) :
    (fill byteAddr calls i data)[j]? = if j = i then some ((calls i).answer (byteAddr i)) else data[j]? := by
  rw [fill, if_pos hgot, List.getElem?_set]
  by_cases hij : j = i
  · rw [if_pos hij.symm, if_pos hij, if_pos hi]
  · rw [if_neg (Ne.symm hij), if_neg hij]

theorem length_fill (i : Nat) (data : List Byte) : (fill byteAddr calls i data).length = data.length := by
  unfold fill
  split
  · exact List.length_set
  · rfl

/-- If every read gives its byte, those of the turns made are filled in and the others keep theirs. -/
theorem fillAll_getElem? {left i : Nat} {data : List Byte} (hlen : i + left ≤ data.length)
    (hgot : ∀ j < i + left, (calls j).got = 1) (j : Nat) :
    (fillAll byteAddr calls left i data)[j]? =
      if i ≤ j ∧ j < i + left then some ((calls j).answer (byteAddr j)) else data[j]? := by
  induction left generalizing i data with
  | zero => rw [fillAll, if_neg (by omega)]
  | succ left ih =>
    rw [fillAll, ih (by rw [length_fill]; omega) fun j hj => hgot j (by omega),
      fill_getElem? (by omega) (hgot i (by omega))]
    by_cases hj : j = i
    · subst hj
      rw [if_neg (by omega), if_pos rfl, if_pos (by omega)]
    · rw [if_neg hj]
      have hrange : (i + 1 ≤ j ∧ j < i + 1 + left) ↔ (i ≤ j ∧ j < i + (left + 1)) := by omega
      simp only [hrange]

end Loop

/-! ### The call -/

section Call

variable {sent : Int → Bool} {mDevFd : Int} {byteAddr : Nat → List Byte} {calls : Nat → ByteCalls}

theorem write_of_closed (h : mDevFd ≤ 0) (wrote : Int) : write mDevFd wrote = -1 := if_pos h

theorem read_of_closed (h : mDevFd ≤ 0) (data : List Byte) : read mDevFd byteAddr calls data = (-1, data) := if_pos h

theorem read_of_open (h : ¬ mDevFd ≤ 0) (data : List Byte) :
    read mDevFd byteAddr calls data = readLoop mDevFd byteAddr calls (turns data.length) 0 (balance calls 0) data :=
  if_neg h

/-- Where all calls so far succeed, there is nothing to notice. -/
theorem not_noticed_of_succeeds {i : Nat} (h : ∀ j ≤ i, Succeeds sent mDevFd (calls j)) :
    ¬ Noticed mDevFd calls i := by
  have hwrote := (h i (Nat.le_refl i)).1.1
  have hsum : balance calls (i + 1) = (i + 1 : Nat) := balance_of_got fun j hj => (h j (by omega)).2
  rw [noticed_iff, hsum]
  omega

/-- A run of the loop that notices nothing returns a number of bytes. -/
theorem balance_ne_neg_one {n : Nat} (h : ∀ i < n, ¬ Noticed mDevFd calls i) : balance calls n ≠ -1 := by
  cases n with
  | zero =>
    rw [show balance calls 0 = 0 from rfl]
    decide
  | succ n =>
    have hlast := h n (Nat.lt_succ_self n)
    rw [noticed_iff] at hlast
    omega

theorem read_fst_of_noticed {data : List Byte} {i : Nat} (hi : i < turns data.length) (h : Noticed mDevFd calls i) :
    (read mDevFd byteAddr calls data).1 = -1 := by
  by_cases hopen : mDevFd ≤ 0
  · rw [read_of_closed hopen]
  · rw [read_of_open hopen]
    exact readLoop_ends (Nat.zero_le i) (by omega) h

theorem read_of_not_noticed {data : List Byte} (hopen : ¬ mDevFd ≤ 0)
    (h : ∀ i < turns data.length, ¬ Noticed mDevFd calls i) :
    read mDevFd byteAddr calls data =
      (balance calls (turns data.length), fillAll byteAddr calls (turns data.length) 0 data) := by
  rw [read_of_open hopen, readLoop_runs fun i _ hi => h i (by omega), Nat.zero_add]

theorem open_of_succeeds {i : Nat} (h : Succeeds sent mDevFd (calls i)) : ¬ mDevFd ≤ 0 := by
  intro hclosed
  have hwrote := h.1.1
  rw [write_of_closed hclosed] at hwrote
  omega

/-- If all calls succeed, `read` returns the turns it has made. -/
theorem read_of_succeeds {data : List Byte} (hn : 1 ≤ data.length)
    (h : ∀ i < data.length, Succeeds sent mDevFd (calls i)) :
    read mDevFd byteAddr calls data =
      ((turns data.length : Int), fillAll byteAddr calls (turns data.length) 0 data) := by
  have hle := turns_le data.length
  have hquiet : ∀ i < turns data.length, ¬ Noticed mDevFd calls i := fun i hi =>
    not_noticed_of_succeeds fun j hj => h j (by omega)
  rw [read_of_not_noticed (open_of_succeeds (h 0 hn)) hquiet, balance_of_got fun i hi => (h i (by omega)).2]

/-- If all calls succeed, the only thing that can go wrong is the length as an `int`. -/
theorem readsRight_of_succeeds_iff {data : List Byte} (hn : 1 ≤ data.length)
    (h : ∀ i < data.length, Succeeds sent mDevFd (calls i)) :
    ReadsRight sent mDevFd byteAddr calls data.length (read mDevFd byteAddr calls data) ↔ data.length < 2 ^ 31 := by
  rw [read_of_succeeds hn h, ← turns_eq_iff hn]
  constructor
  · intro hright
    have := (hright.1 h).1
    omega
  · intro hturns
    refine ⟨fun _ => ⟨by rw [hturns], ?_⟩, fun hnot => absurd h hnot⟩
    intro i hi
    rw [fillAll_getElem? (by omega) fun j hj => (h j (by omega)).2, if_pos (by omega)]

/-- If one of them fails, it depends on whether the loop notices. -/
theorem readsRight_of_not_succeeds_iff {data : List Byte} (h : ¬ ∀ i < data.length, Succeeds sent mDevFd (calls i)) :
    ReadsRight sent mDevFd byteAddr calls data.length (read mDevFd byteAddr calls data) ↔
      mDevFd ≤ 0 ∨ ∃ i < turns data.length, Noticed mDevFd calls i := by
  constructor
  · intro hright
    by_contra hunseen
    simp only [not_or, not_exists, not_and] at hunseen
    have hret := hright.2 h
    rw [read_of_not_noticed hunseen.1 hunseen.2] at hret
    exact balance_ne_neg_one hunseen.2 hret
  · rintro (hclosed | ⟨i, hi, hseen⟩)
    · refine ⟨fun hall => absurd hall h, fun _ => ?_⟩
      rw [read_of_closed hclosed]
    · exact ⟨fun hall => absurd hall h, fun _ => read_fst_of_noticed hi hseen⟩

theorem readsRight_iff {data : List Byte} (hn : 1 ≤ data.length) :
    ReadsRight sent mDevFd byteAddr calls data.length (read mDevFd byteAddr calls data) ↔
      FailuresSeen sent mDevFd calls data.length := by
  have hle := turns_le data.length
  by_cases hall : ∀ i < data.length, Succeeds sent mDevFd (calls i)
  · rw [readsRight_of_succeeds_iff hn hall]
    constructor
    · intro hsize
      exact Or.inr (Or.inl ⟨hsize, hall⟩)
    · rintro (hclosed | ⟨hsize, _⟩ | ⟨i, hi, hseen⟩)
      · exact absurd hclosed (open_of_succeeds (hall 0 hn))
      · exact hsize
      · exact absurd hseen (not_noticed_of_succeeds fun j hj => hall j (by omega))
  · rw [readsRight_of_not_succeeds_iff hall]
    constructor
    · rintro (hclosed | hseen)
      · exact Or.inl hclosed
      · exact Or.inr (Or.inr hseen)
    · rintro (hclosed | ⟨_, hall'⟩ | hseen)
      · exact Or.inl hclosed
      · exact absurd hall' hall
      · exact Or.inr hseen

end Call

/-! ### The overloads -/

/-- The address of 8 bits wraps. -/
theorem byteAddr8 (regAddr : BitVec 8) (i : Nat) :
    [BitVec.ofNat 8 (regAddr.toNat + i)] = [regAddr + BitVec.ofNat 8 i] := by
  rw [BitVec.ofNat_add, BitVec.ofNat_toNat, BitVec.setWidth_eq]

theorem byteAddr16 (regAddr : BitVec 16) (i : Nat) :
    [BitVec.ofNat 8 ((regAddr.toNat + i) >>> 8 &&& 0xFF), BitVec.ofNat 8 ((regAddr.toNat + i) >>> 0 &&& 0xFF)] =
      addrBytes (regAddr + BitVec.ofNat 16 i) := by
  have hmask (x : Nat) : x &&& 0xFF = x % 256 := Nat.and_two_pow_sub_one_eq_mod x 8
  rw [addrBytes, hmask, hmask]
  congr 1
  · apply BitVec.eq_of_toNat_eq
    simp only [BitVec.toNat_ofNat, BitVec.extractLsb'_toNat, BitVec.toNat_add, Nat.shiftRight_eq_div_pow]
    omega
  · congr 1
    apply BitVec.eq_of_toNat_eq
    simp only [BitVec.toNat_ofNat, BitVec.extractLsb'_toNat, BitVec.toNat_add, Nat.shiftRight_eq_div_pow]
    omega

theorem i2c_read_right_iff (sent : Int → Bool) (mDevFd : Int) (regAddr8 : BitVec 8) (regAddr16 : BitVec 16)
    (calls : Nat → ByteCalls) (data : List Byte) (hn : 1 ≤ data.length) :
    (ReadsRight sent mDevFd (fun i => [regAddr8 + BitVec.ofNat 8 i]) calls data.length
        (read8 mDevFd regAddr8 calls data) ↔ FailuresSeen sent mDevFd calls data.length) ∧
    (ReadsRight sent mDevFd (fun i => addrBytes (regAddr16 + BitVec.ofNat 16 i)) calls data.length
        (read16 mDevFd regAddr16 calls data) ↔ FailuresSeen sent mDevFd calls data.length) := by
  simp only [read8, read16, byteAddr8, byteAddr16]
  exact ⟨readsRight_iff hn, readsRight_iff hn⟩

/-- Two registers from 0xFF on, that is 0xFF and 0x00, of a device that answers with the address. -/
theorem i2c_read_two :
    let calls : Nat → ByteCalls := fun _ => ⟨1, 1, fun addr => addr.headD 0, Or.inl rfl⟩
    1 ≤ 2 ∧ ReadsRight (· == 1) 5 (fun i => [0xFF + BitVec.ofNat 8 i]) calls 2 (read8 5 0xFF calls [0, 0]) := by
  intro calls
  refine ⟨by decide, (i2c_read_right_iff (· == 1) 5 0xFF 0 calls [0, 0] (by decide)).1.2 ?_⟩
  exact Or.inr (Or.inl ⟨by decide, fun _ _ => ⟨by decide, rfl⟩⟩)

/-- The second read gives nothing, and `read` returns the one byte of the first. -/
theorem i2c_read_short :
    let calls (len : Int) : Nat → ByteCalls := fun i => ⟨len, if i = 0 then 1 else 0, fun _ => 7, by grind⟩
    ((read8 5 0x30 (calls 1) [0, 0]).1 = 1 ∧
      ¬ ReadsRight (· == 1) 5 (fun i => [0x30 + BitVec.ofNat 8 i]) (calls 1) 2 (read8 5 0x30 (calls 1) [0, 0])) ∧
    ((read16 5 0x3000 (calls 2) [0, 0]).1 = 1 ∧
      ¬ ReadsRight (· == 2) 5 (fun i => addrBytes (0x3000 + BitVec.ofNat 16 i)) (calls 2) 2
        (read16 5 0x3000 (calls 2) [0, 0])) := by
  intro calls
  have hfails (sent : Int → Bool) (len : Int) : ¬ ∀ i < 2, Succeeds sent 5 (calls len i) := by
    intro hall
    have hgot : (0 : Int) = 1 := (hall 1 (by decide)).2
    exact absurd hgot (by decide)
  refine ⟨⟨by decide, ?_⟩, by decide, ?_⟩
  · intro h
    exact absurd (h.2 (hfails _ 1)) (by decide)
  · intro h
    exact absurd (h.2 (hfails _ 2)) (by decide)

/-- For one byte the sum is the result of the read. -/
theorem noticed_first (mDevFd : Int) (call : ByteCalls) :
    Noticed mDevFd (fun _ => call) 0 ↔ ¬ (0 ≤ write mDevFd call.wrote ∧ call.got = 1) := by
  have hzero : balance (fun _ => call) 0 = 0 := rfl
  rw [noticed_iff, balance_succ, hzero]
  rcases call.got_range with h | h | h <;> omega

/-- The overloads for one byte see every failure. -/
theorem readOne_read (mDevFd : Int) (byteAddr : Nat → List Byte) (call : ByteCalls) (data : Byte) :
    readOne (read mDevFd byteAddr fun _ => call) data =
      if 0 ≤ write mDevFd call.wrote ∧ call.got = 1 then (1, call.answer (byteAddr 0)) else (-1, data) := by
  have hturns : turns [(0 : Byte)].length = 1 := by decide
  by_cases hok : 0 ≤ write mDevFd call.wrote ∧ call.got = 1
  · have hopen : ¬ mDevFd ≤ 0 := by
      intro hclosed
      rw [write_of_closed hclosed] at hok
      omega
    have hquiet : ¬ Noticed mDevFd (fun _ => call) 0 := fun h => (noticed_first mDevFd call).1 h hok
    rw [if_pos hok, readOne, read_of_open hopen, hturns, readLoop_step hquiet, balance_of_got fun _ _ => hok.2, fill,
      if_pos hok.2]
    rfl
  · have hret : (read mDevFd byteAddr (fun _ => call) [0]).1 = -1 :=
      read_fst_of_noticed (by rw [hturns]; decide) ((noticed_first mDevFd call).2 hok)
    rw [if_neg hok, readOne]
    simp only [hret]
    rfl

theorem readOne_eq (mDevFd : Int) (regAddr8 : BitVec 8) (regAddr16 : BitVec 16) (call : ByteCalls) (data : Byte) :
    read8One mDevFd regAddr8 call data =
        (if 0 ≤ write mDevFd call.wrote ∧ call.got = 1 then (1, call.answer [regAddr8]) else (-1, data)) ∧
      read16One mDevFd regAddr16 call data =
        (if 0 ≤ write mDevFd call.wrote ∧ call.got = 1 then (1, call.answer (addrBytes regAddr16)) else (-1, data)) := by
  constructor
  · rw [read8One, show read8 mDevFd regAddr8 = read mDevFd _ from rfl, readOne_read, byteAddr8, BitVec.add_zero]
  · rw [read16One, show read16 mDevFd regAddr16 = read mDevFd _ from rfl, readOne_read, byteAddr16, BitVec.add_zero]

end RcCarControl.Daemon.I2cCtrl
