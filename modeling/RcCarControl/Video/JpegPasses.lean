import RcCarControl.Video.JpegFrameParser

/-!
# What the parser does at a marker

One lemma for each reader of `JpegFrameParser`, at an offset that lies in the buffer or at its end.  Buffers are short
enough for the sums of offsets and sizes of segments not to wrap (`SumsFit`).
-/

namespace RcCarControl.Video

open LittleEndian (Byte)
open Memory

/-- No offset in the buffer and size of a segment sum up to 2³². -/
def SumsFit (data : List Byte) : Prop := data.length + 2 ^ 16 ≤ 2 ^ 32

instance (data : List Byte) : Decidable (SumsFit data) := inferInstanceAs (Decidable (_ ≤ _))

/-- The word at an offset, high byte first. -/
def beWord (data : List Byte) (offset : Nat) : Nat := (data.getD offset 0 ++ data.getD (offset + 1) 0).toNat

section Readers

variable {data : List Byte} {offset : Nat}

theorem uint_eq {x : Nat} (h : x < 2 ^ 32) : uint x = x := Nat.mod_eq_of_lt h

theorem SumsFit.uint (h : SumsFit data) {k : Nat} (ho : offset ≤ data.length) (hk : k < 2 ^ 16) :
    uint (offset + k) = offset + k := by
  apply uint_eq
  unfold SumsFit at h
  omega

theorem beWord_lt : beWord data offset < 2 ^ 16 := BitVec.isLt _

theorem byteAt_eq (h : offset < data.length) : byteAt data offset = .ok (data.getD offset 0) := if_pos h

theorem byteAt_error (h : data.length ≤ offset) : byteAt data offset = .error .read := if_neg (by omega)

theorem jpegHeaderSize_eq (h : offset + 2 ≤ data.length) : jpegHeaderSize data offset = .ok (beWord data offset) := by
  unfold jpegHeaderSize beWord
  rw [byteAt_eq (by omega), byteAt_eq (by omega)]
  rfl

theorem jpegHeaderSize_error (h : data.length < offset + 2) : jpegHeaderSize data offset = .error .read := by
  unfold jpegHeaderSize
  by_cases ho : offset < data.length
  · rw [byteAt_eq ho, byteAt_error (by omega)]
    rfl
  · rw [byteAt_error (by omega)]
    rfl

theorem bytesAt_eq {n : Nat} (h : offset + n ≤ data.length) :
    bytesAt data offset n = .ok ((data.drop offset).take n) := if_pos h

/-- The search ends behind a start marker or at the end of the buffer. -/
theorem skipToStart_eq {rest : List Byte} (hrest : data.drop offset = rest) (ho : offset < data.length) :
    ∃ n, offset ≤ n ∧ n < data.length ∧ skipToStart data.length rest offset = .ok (n + 1) ∧
      (n + 1 < data.length → data[n]? = some startMarker) := by
  induction rest generalizing offset with
  | nil =>
    have hlen := congrArg List.length hrest
    simp at hlen
    omega
  | cons b rest ih =>
    have hb : data[offset]? = some b := by
      rw [← Nat.add_zero offset, ← List.getElem?_drop, hrest]
      rfl
    unfold skipToStart
    split_ifs with h
    · have hnext : data.drop (offset + 1) = rest := by rw [← List.drop_drop, hrest, List.drop_one, List.tail_cons]
      obtain ⟨n, hn, hlt, hskip, hstart⟩ := ih hnext h.2
      exact ⟨n, by omega, hlt, hskip, hstart⟩
    · refine ⟨offset, le_refl _, ho, rfl, ?_⟩
      intro hlt
      have hbs : b = startMarker := by
        by_contra hne
        exact h ⟨hne, hlt⟩
      rw [hb, hbs]

/-- A marker is the byte behind the next start marker; without one the end of the image is reported. -/
theorem scanJpegMarker_cases (ho : offset < data.length) :
    scanJpegMarker data offset = .ok (eoiMarker, data.length) ∨
      ∃ n m, offset ≤ n ∧ n + 2 ≤ data.length ∧ data[n]? = some startMarker ∧ data[n + 1]? = some m ∧
        scanJpegMarker data offset = .ok (m, n + 2) := by
  obtain ⟨n, hn, hlt, hskip, hstart⟩ := skipToStart_eq rfl ho
  unfold scanJpegMarker
  rw [hskip]
  by_cases hend : n + 1 < data.length
  · right
    refine ⟨n, data.getD (n + 1) 0, hn, by omega, hstart hend, ?_, ?_⟩
    · rw [List.getD_eq_getElem?_getD, List.getElem?_eq_getElem hend]
      rfl
    · show (if data.length ≤ n + 1 then _ else _) = _
      rw [if_neg (by omega), byteAt_eq hend]
      rfl
  · left
    show (if data.length ≤ n + 1 then _ else _) = _
    rw [if_pos (by omega), show n + 1 = data.length by omega]

end Readers

/-! ### The frame header -/

/-- The component at an offset. -/
def compAt (data : List Byte) (off : Nat) : CompInfo := ⟨data.getD off 0, data.getD (off + 1) 0, data.getD (off + 2) 0⟩

/-- The frame headers that the parser takes: three components, the first one with a sampling of 2x1 or 2x2. -/
structure Supported (data : List Byte) (offset : Nat) : Prop where
  room : offset + 17 ≤ data.length
  length : 17 ≤ beWord data offset
  precision : data.getD (offset + 2) 0 = 8
  height : 1 ≤ beWord data (offset + 3) ∧ beWord data (offset + 3) ≤ 2040
  width : 1 ≤ beWord data (offset + 5) ∧ beWord data (offset + 5) ≤ 2040
  comps : data.getD (offset + 7) 0 = 3
  first : (compAt data (offset + 8)).samp = 0x21 ∨ (compAt data (offset + 8)).samp = 0x22
  second : (compAt data (offset + 11)).samp = 0x11
  third : (compAt data (offset + 14)).samp = 0x11
  tables : (compAt data (offset + 11)).qt = (compAt data (offset + 14)).qt

/-- The parser with the dimensions, in blocks of eight, and the type of a frame header. -/
def sofParser (p : JpegFrameParser) (data : List Byte) (offset : Nat) : JpegFrameParser :=
  { p with
    width := beWord data (offset + 5) / 8
    height := beWord data (offset + 3) / 8
    type := if (compAt data (offset + 8)).samp = 0x21 then 0 else 1 }

/-- The first component stays in its place, the other two may change places. -/
theorem readComps_eq {data : List Byte} {off : Nat} (h : off + 9 ≤ data.length) (info : Nat → CompInfo) :
    ∃ info', readComps data 3 off 0 info = .ok info' ∧ info' 0 = compAt data off ∧
      (info' 1 = compAt data (off + 3) ∧ info' 2 = compAt data (off + 6) ∨
        info' 1 = compAt data (off + 6) ∧ info' 2 = compAt data (off + 3)) := by
  have hread (n k infolen : Nat) (i : Nat → CompInfo) (hk : k + 3 ≤ data.length) :
      readComps data (n + 1) k infolen i =
        readComps data n (k + 3) (infolen + 1) (insertComp i (compAt data k) infolen) := by
    simp only [readComps]
    rw [byteAt_eq (by omega), byteAt_eq (by omega), byteAt_eq (by omega)]
    rfl
  rw [hread _ _ _ _ (by omega), hread _ _ _ _ (by omega), hread _ _ _ _ (by omega)]
  refine ⟨_, rfl, ?_⟩
  unfold insertComp
  simp only [Nat.reduceAdd]
  split_ifs with hid
  · simp [insertComp, Function.update]
  · simp [insertComp, Function.update]

/-- The checks do not depend on the order of the last two components. -/
theorem checkComps_spec (p : JpegFrameParser) {info : Nat → CompInfo} {a b c : CompInfo} (ha : info 0 = a)
    (hbc : info 1 = b ∧ info 2 = c ∨ info 1 = c ∧ info 2 = b) :
    ((checkComps p info).2 = 0 ↔ (a.samp = 0x21 ∨ a.samp = 0x22) ∧ b.samp = 0x11 ∧ c.samp = 0x11 ∧ b.qt = c.qt) ∧
      ((checkComps p info).2 = 0 → (checkComps p info).1 = { p with type := if a.samp = 0x21 then 0 else 1 }) := by
  unfold checkComps
  rw [ha]
  rcases hbc with ⟨h₁, h₂⟩ | ⟨h₁, h₂⟩
  · rw [h₁, h₂]
    split_ifs <;> simp_all
  · have hqt : b.qt = c.qt ↔ c.qt = b.qt := eq_comm
    rw [h₁, h₂, hqt]
    split_ifs <;> simp_all

section Sof

variable {data : List Byte} {offset : Nat}

/-- A frame header that `readSOF` refuses. -/
private theorem refused (p q : JpegFrameParser) (n : Nat) (h : ¬ Supported data offset) :
    ∃ p' next r, (.ok (q, n, -1) : Except Undefined (JpegFrameParser × Nat × Int)) = .ok (p', next, r) ∧
      (r = 0 ↔ Supported data offset) ∧ (r = 0 → p' = sofParser p data offset ∧ next = offset + beWord data offset) :=
  ⟨q, n, -1, rfl, ⟨fun hr => absurd hr (by decide), fun hs => absurd hs h⟩, fun hr => absurd hr (by decide)⟩

/-- `readSOF` reads in the buffer only, and takes the supported headers. -/
theorem readSOF_spec (p : JpegFrameParser) (hfit : SumsFit data) (ho : offset ≤ data.length) :
    ∃ p' next r, readSOF p data offset = .ok (p', next, r) ∧ (r = 0 ↔ Supported data offset) ∧
      (r = 0 → p' = sofParser p data offset ∧ next = offset + beWord data offset) := by
  unfold readSOF
  rw [hfit.uint ho (by omega)]
  by_cases hroom : data.length < offset + 17
  · rw [if_pos hroom]
    exact refused p _ _ fun h => absurd h.room (by omega)
  have hbody : offset + 8 + 9 ≤ data.length := by omega
  obtain ⟨info, hinfo, hfirst, hothers⟩ := readComps_eq hbody fun _ => ⟨0, 0, 0⟩
  have hsize : jpegHeaderSize data offset = .ok _ := jpegHeaderSize_eq (by omega)
  have hprec : byteAt data (offset + 2) = .ok _ := byteAt_eq (by omega)
  have hheight : jpegHeaderSize data (offset + 3) = .ok _ := jpegHeaderSize_eq (by omega)
  have hwidth : jpegHeaderSize data (offset + 5) = .ok _ := jpegHeaderSize_eq (by omega)
  have hcomps : byteAt data (offset + 7) = .ok _ := byteAt_eq (by omega)
  rw [if_neg hroom, hsize, hprec, hheight, hwidth, hcomps, hinfo]
  simp only [bind, Except.bind, pure, Except.pure]
  rw [hfit.uint ho beWord_lt]
  by_cases c₁ : beWord data offset < 17
  · rw [if_pos c₁]
    exact refused p _ _ fun h => absurd h.length (by omega)
  by_cases c₂ : data.getD (offset + 2) 0 = 8
  swap
  · rw [if_neg c₁, if_pos c₂]
    exact refused p _ _ fun h => c₂ h.precision
  by_cases c₃ : beWord data (offset + 3) = 0 ∨ 2040 < beWord data (offset + 3)
  · rw [if_neg c₁, if_neg (not_not.2 c₂), if_pos c₃]
    exact refused p _ _ fun h => by have := h.height; omega
  by_cases c₄ : beWord data (offset + 5) = 0 ∨ 2040 < beWord data (offset + 5)
  · rw [if_neg c₁, if_neg (not_not.2 c₂), if_neg c₃, if_pos c₄]
    exact refused p _ _ fun h => by have := h.width; omega
  by_cases c₅ : data.getD (offset + 7) 0 = 3
  swap
  · rw [if_neg c₁, if_neg (not_not.2 c₂), if_neg c₃, if_neg c₄, if_pos c₅]
    exact refused p _ _ fun h => c₅ h.comps
  rw [if_neg c₁, if_neg (not_not.2 c₂), if_neg c₃, if_neg c₄, if_neg (not_not.2 c₅)]
  obtain ⟨hiff, hp⟩ := checkComps_spec
    { p with width := beWord data (offset + 5) / 8, height := beWord data (offset + 3) / 8 } hfirst hothers
  refine ⟨_, _, _, rfl, hiff.trans ⟨?_, ?_⟩, fun hr => ⟨hp hr, rfl⟩⟩
  · rintro ⟨hs₀, hs₁, hs₂, hqt⟩
    exact ⟨by omega, by omega, c₂, by omega, by omega, c₅, hs₀, hs₁, hs₂, hqt⟩
  · intro h
    exact ⟨h.first, h.second, h.third, h.tables⟩

end Sof

/-! ### The other segments -/

/-- The parser with other tables. -/
def JpegFrameParser.withTables (p : JpegFrameParser) (tables : Mem Byte) (length : Nat) : JpegFrameParser :=
  { p with qTables := tables, qTablesLength := length }

/-- The bytes of a table are all in the segment, of which `quantSize` bytes are left. -/
def TableAt (data : List Byte) (offset quantSize : Nat) : Prop :=
  tableId (data.getD offset 0) ≠ 15 ∧ tabSize (data.getD offset 0) < quantSize

/-- The place of a table goes beyond the memory of the tables. -/
def Outside (head : Byte) : Prop := qTablesSize < tableId head * tabSize head + tabSize head

instance (head : Byte) : Decidable (Outside head) := inferInstanceAs (Decidable (_ < _))

/-- Behind whole tables comes one without a place in the memory of the tables. -/
inductive BadTable (data : List Byte) : Nat → Nat → Prop
  | here {offset quantSize : Nat} (ht : TableAt data offset quantSize) (h : Outside (data.getD offset 0)) :
    BadTable data offset quantSize
  | behind {offset quantSize : Nat} (ht : TableAt data offset quantSize)
    (h : BadTable data (offset + (tabSize (data.getD offset 0) + 1)) (quantSize - (tabSize (data.getD offset 0) + 1))) :
    BadTable data offset quantSize

section Segments

variable {data : List Byte} {offset : Nat}

theorem tabSize_cases (b : Byte) : tabSize b = 128 ∨ tabSize b = 64 := by
  unfold tabSize
  split_ifs
  · left; rfl
  · right; rfl

theorem BadTable.tableAt {quantSize : Nat} (h : BadTable data offset quantSize) : TableAt data offset quantSize := by
  cases h with
  | here ht => exact ht
  | behind ht => exact ht

theorem not_badTable_zero : ¬ BadTable data offset 0 := fun h => Nat.not_lt_zero _ h.tableAt.2

/-- The tables are taken from the segment and the loop ends behind it, up to a table that is outside. -/
theorem readTables_spec (hfit : SumsFit data) {fuel quantSize : Nat} (p : JpegFrameParser) (hfuel : quantSize ≤ fuel)
    (ho : offset + quantSize ≤ data.length) :
    (readTables data fuel p offset quantSize = .error .write ∧ BadTable data offset quantSize) ∨
      ¬ BadTable data offset quantSize ∧ ∃ tables length, readTables data fuel p offset quantSize =
        .ok (p.withTables tables length, offset + quantSize) := by
  have hend : uint (offset + quantSize) = offset + quantSize := by
    have := hfit.uint (k := 0) ho (by omega)
    simpa using this
  induction fuel generalizing p offset quantSize with
  | zero =>
    right
    obtain rfl : quantSize = 0 := Nat.le_zero.1 hfuel
    refine ⟨not_badTable_zero, p.qTables, p.qTablesLength, ?_⟩
    rw [readTables, hend]
    rfl
  | succ fuel ih =>
    unfold readTables
    rw [hend]
    by_cases hstop : quantSize = 0 ∨ data.length < uint (offset + 1)
    · right
      rw [if_pos hstop]
      obtain rfl : quantSize = 0 := by
        rcases hstop with hzero | hout
        · exact hzero
        · rw [hfit.uint (by omega) (by omega)] at hout
          omega
      exact ⟨not_badTable_zero, p.qTables, p.qTablesLength, rfl⟩
    rw [if_neg hstop]
    push Not at hstop
    rw [byteAt_eq (by omega), hfit.uint (by omega) (by omega)]
    simp only [bind, Except.bind, pure, Except.pure, throw, throwThe, MonadExceptOf.throw]
    by_cases hid : tableId (data.getD offset 0) = 15
    · right
      rw [if_pos hid]
      exact ⟨fun h => h.tableAt.1 hid, p.qTables, p.qTablesLength, rfl⟩
    rw [if_neg hid]
    by_cases hsmall : quantSize < tabSize (data.getD offset 0) + 1
    · right
      rw [if_pos hsmall]
      refine ⟨fun h => ?_, p.qTables, _, rfl⟩
      have hroom := h.tableAt.2
      omega
    have ht : TableAt data offset quantSize := ⟨hid, by omega⟩
    rw [if_neg hsmall, bytesAt_eq (by omega)]
    simp only
    by_cases hbad : qTablesSize <
        tableId (data.getD offset 0) * tabSize (data.getD offset 0) + tabSize (data.getD offset 0)
    · left
      rw [if_pos hbad]
      exact ⟨rfl, .here ht hbad⟩
    rw [if_neg hbad]
    have htab := tabSize_cases (data.getD offset 0)
    rw [hfit.uint (by omega) (by omega)]
    have hnext : offset + (tabSize (data.getD offset 0) + 1) + (quantSize - (tabSize (data.getD offset 0) + 1)) =
        offset + quantSize := by omega
    have hless : quantSize - (tabSize (data.getD offset 0) + 1) ≤ fuel := by omega
    have hroom : offset + (tabSize (data.getD offset 0) + 1) + (quantSize - (tabSize (data.getD offset 0) + 1)) ≤
        data.length := by omega
    have := ih { p with
        qTablesLength := tabSize (data.getD offset 0) * 2
        qTables := store p.qTables (tableId (data.getD offset 0) * tabSize (data.getD offset 0))
          ((data.drop (offset + 1)).take (tabSize (data.getD offset 0))) } hless hroom (by rw [hnext, hend])
    rw [hnext] at this
    rcases this with ⟨herr, hb⟩ | ⟨hno, tables, length, hok⟩
    · left
      exact ⟨herr, .behind ht hb⟩
    · right
      refine ⟨fun h => ?_, tables, length, hok⟩
      cases h with
      | here _ hout => exact hbad hout
      | behind _ hb => exact hno hb

/-- A segment of tables with one that has no place in the memory of the tables. -/
def BadTables (data : List Byte) (offset : Nat) : Prop :=
  BadTable data (offset + 2) (min data.length (offset + beWord data offset) - (offset + 2))

/-- `readDQT` reads in the buffer only, and changes the tables only. -/
theorem readDQT_spec (p : JpegFrameParser) (hfit : SumsFit data) (ho : offset ≤ data.length) :
    (readDQT p data offset = .error .write ∧ BadTables data offset) ∨
      ¬ BadTables data offset ∧ ∃ tables length next, readDQT p data offset = .ok (p.withTables tables length, next) ∧
        offset ≤ next ∧ next ≤ data.length := by
  unfold readDQT
  rw [hfit.uint ho (by omega)]
  have hnone (h : min data.length (offset + beWord data offset) ≤ offset + 2) : ¬ BadTables data offset := by
    unfold BadTables
    rw [Nat.sub_eq_zero_of_le h]
    exact not_badTable_zero
  by_cases hroom : data.length < offset + 2
  · right
    rw [if_pos hroom]
    exact ⟨hnone (by omega), p.qTables, p.qTablesLength, _, rfl, ho, le_refl _⟩
  rw [if_neg hroom, jpegHeaderSize_eq (by omega)]
  simp only [bind, Except.bind, pure, Except.pure]
  by_cases hsmall : beWord data offset < 2
  · right
    rw [if_pos hsmall]
    exact ⟨hnone (by omega), p.qTables, p.qTablesLength, _, rfl, ho, le_refl _⟩
  rw [if_neg hsmall, hfit.uint ho beWord_lt]
  obtain ⟨quant, hquant, hle, hmin⟩ : ∃ quant, (if data.length < offset + beWord data offset then data.length - offset
      else beWord data offset) = quant ∧ 2 ≤ quant ∧ offset + quant = min data.length (offset + beWord data offset) := by
    refine ⟨_, rfl, ?_, ?_⟩ <;> split_ifs <;> omega
  rw [hquant]
  have hbad : BadTables data offset ↔ BadTable data (offset + 2) (quant - 2) := by
    unfold BadTables
    rw [← hmin, Nat.add_sub_add_left]
  rw [hbad]
  rcases readTables_spec hfit p (le_refl (quant - 2)) (show offset + 2 + (quant - 2) ≤ data.length by omega) with
    ⟨herr, hbad⟩ | ⟨hno, tables, length, hok⟩
  · left
    exact ⟨herr, hbad⟩
  · right
    exact ⟨hno, tables, length, _, hok, by omega, by omega⟩

/-- A segment of four bytes or more gives its first word. -/
theorem readDRI_eq (p : JpegFrameParser) (hfit : SumsFit data) (hroom : offset + 4 ≤ data.length)
    (hsize : 4 ≤ beWord data offset) : readDRI p data offset =
      .ok ({ p with restartInterval := beWord data (offset + 2) }, offset + beWord data offset, 0) := by
  unfold readDRI
  rw [hfit.uint (by omega) (by omega), if_neg (by omega), jpegHeaderSize_eq (by omega)]
  simp only [bind, Except.bind, pure, Except.pure]
  rw [hfit.uint (by omega) beWord_lt, if_neg (by omega), jpegHeaderSize_eq (by omega)]

/-- `readDRI` reads in the buffer only, and changes the restart interval only. -/
theorem readDRI_spec (p : JpegFrameParser) (hfit : SumsFit data) (ho : offset ≤ data.length) :
    ∃ p' next r, readDRI p data offset = .ok (p', next, r) ∧ offset ≤ next ∧
      (r = 0 → p' = { p with restartInterval := beWord data (offset + 2) }) ∧ (r ≠ 0 → p' = p) := by
  by_cases hok : offset + 4 ≤ data.length ∧ 4 ≤ beWord data offset
  · exact ⟨_, _, _, readDRI_eq p hfit hok.1 hok.2, by omega, fun _ => rfl, fun h => absurd rfl h⟩
  unfold readDRI
  rw [hfit.uint ho (by omega)]
  by_cases hroom : data.length < offset + 4
  · rw [if_pos hroom]
    exact ⟨p, _, _, rfl, le_refl _, fun h => absurd h (by decide), fun _ => rfl⟩
  · rw [if_neg hroom, jpegHeaderSize_eq (by omega)]
    simp only [bind, Except.bind, pure, Except.pure]
    rw [hfit.uint ho beWord_lt, if_pos (by omega)]
    exact ⟨p, _, _, rfl, by omega, fun h => absurd h (by decide), fun _ => rfl⟩

end Segments

/-! ### The markers -/

section Markers

variable {data : List Byte} {l : ParseLoop} {offset next n : Nat} {p : JpegFrameParser}

end Markers

/-! ### One turn of the loop -/

section Loop

variable {data : List Byte} {l l' : ParseLoop} {fuel : Nat}

theorem parseLoop_done (h : ¬ (l.sosFound = false ∧ l.offset < data.length)) :
    parseLoop data fuel l = .ok (.next l) := by
  unfold parseLoop
  rw [if_neg h]

theorem parseLoop_next (hs : l.sosFound = false) (ho : l.offset < data.length)
    (h : parsePass data l = .ok (.next l')) : parseLoop data (fuel + 1) l = parseLoop data fuel l' := by
  conv => lhs; unfold parseLoop
  rw [if_pos ⟨hs, ho⟩, h]
  rfl

theorem parseLoop_invalid {p : JpegFrameParser} (hs : l.sosFound = false) (ho : l.offset < data.length)
    (h : parsePass data l = .ok (.invalidFormat p)) : parseLoop data (fuel + 1) l = .ok (.invalidFormat p) := by
  unfold parseLoop
  rw [if_pos ⟨hs, ho⟩, h]
  rfl

theorem parseLoop_error {e : Undefined} (hs : l.sosFound = false) (ho : l.offset < data.length)
    (h : parsePass data l = .error e) : parseLoop data (fuel + 1) l = .error e := by
  unfold parseLoop
  rw [if_pos ⟨hs, ho⟩, h]
  rfl

end Loop

end RcCarControl.Video
