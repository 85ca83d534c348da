import Mathlib.Logic.Relation
import RcCarControl.Video.JpegPasses

/-!
# What the parser reads and accepts

The loop of `parse` moves on at every marker, and the only bytes that it reads unchecked are those of the size behind a
marker of `HeaderMarker`.  So it stays in every buffer that ends with the marker of the end of an image, and it leaves
the memory of the tables exactly at a table without a place there (`parse_complete`).  An accepted buffer holds the frame
header and the tables that the parser gives out; the scan lies behind the scan header, in the buffer or not
(`parse_accepted`).
-/

namespace RcCarControl.Video

open LittleEndian (Byte)
open Memory

/-- The markers whose size is read without a look at the end of the buffer. -/
def HeaderMarker (m : Byte) : Prop := m = jfifMarker ∨ m = cmtMarker ∨ m = dhtMarker ∨ m = sosMarker

/-- What a marker with the offset behind it makes of the variables of the loop. -/
inductive Handled (data : List Byte) (l : ParseLoop) (m : Byte) (offset : Nat) : ParseLoop → Prop
  | skipped (n : Nat) : Handled data l m offset { l with offset := n }
  | frame (h : m = sofMarker) (hs : Supported data offset) (n : Nat) :
    Handled data l m offset { l with parser := sofParser l.parser data offset, offset := n, sofFound := true }
  | tables (h : m = dqtMarker) (t : Mem Byte) (length n : Nat) :
    Handled data l m offset { l with parser := l.parser.withTables t length, offset := n, dqtFound := true }
  | scan (h : m = sosMarker) :
    Handled data l m offset { l with offset := offset, sosFound := true, headerSize := offset + beWord data offset }
  | restart (h : m = driMarker) (n : Nat) :
    Handled data l m offset { l with
      parser := { l.parser with restartInterval := beWord data (offset + 2) }, offset := n, driFound := true }

/-- All outcomes of the `switch`. -/
theorem handleMarker_cases {data : List Byte} {offset : Nat} (hfit : SumsFit data) (ho : offset ≤ data.length)
    (l : ParseLoop) (m : Byte) :
    (handleMarker data l m offset = .error .read ∧ HeaderMarker m ∧ data.length < offset + 2) ∨
      (handleMarker data l m offset = .error .write ∧ m = dqtMarker ∧ BadTables data offset) ∨
      (∃ p, handleMarker data l m offset = .ok (.invalidFormat p) ∧ m = sofMarker ∧ ¬ Supported data offset) ∨
      ∃ l', handleMarker data l m offset = .ok (.next l') ∧ offset ≤ l'.offset ∧ Handled data l m offset l' := by
  unfold handleMarker
  by_cases hskip : m = jfifMarker ∨ m = cmtMarker ∨ m = dhtMarker
  · rw [if_pos hskip]
    by_cases hroom : offset + 2 ≤ data.length
    · rw [jpegHeaderSize_eq hroom]
      right; right; right
      refine ⟨_, rfl, ?_, .skipped _⟩
      rw [hfit.uint ho beWord_lt]
      exact Nat.le_add_right _ _
    · left
      rw [jpegHeaderSize_error (by omega)]
      exact ⟨rfl, by unfold HeaderMarker; tauto, by omega⟩
  rw [if_neg hskip]
  by_cases hsof : m = sofMarker
  · rw [if_pos hsof]
    obtain ⟨p, next, r, hread, hiff, heq⟩ := readSOF_spec l.parser hfit ho
    rw [hread]
    right; right
    by_cases hr : r = 0
    · obtain ⟨rfl, rfl⟩ := heq hr
      right
      subst hr
      refine ⟨_, rfl, ?_, .frame hsof (hiff.1 rfl) _⟩
      exact Nat.le_add_right _ _
    · left
      refine ⟨p, ?_, hsof, fun hs => hr (hiff.2 hs)⟩
      show (if r ≠ 0 then _ else _) = _
      rw [if_pos hr]
      rfl
  rw [if_neg hsof]
  by_cases hdqt : m = dqtMarker
  · rw [if_pos hdqt]
    right
    rcases readDQT_spec l.parser hfit ho with ⟨herr, hbad⟩ | ⟨-, tables, length, next, hok, hle, -⟩
    · left
      rw [herr]
      exact ⟨rfl, hdqt, hbad⟩
    · right; right
      rw [hok]
      exact ⟨_, rfl, hle, .tables hdqt tables length next⟩
  rw [if_neg hdqt]
  by_cases hsos : m = sosMarker
  · rw [if_pos hsos]
    by_cases hroom : offset + 2 ≤ data.length
    · rw [jpegHeaderSize_eq hroom]
      simp only [bind, Except.bind, pure, Except.pure]
      rw [hfit.uint ho beWord_lt]
      right; right; right
      exact ⟨_, rfl, le_refl _, .scan hsos⟩
    · left
      rw [jpegHeaderSize_error (by omega)]
      exact ⟨rfl, by unfold HeaderMarker; tauto, by omega⟩
  rw [if_neg hsos]
  right; right; right
  by_cases hdri : m = driMarker
  · rw [if_pos hdri]
    obtain ⟨p, next, r, hread, hle, hzero, hother⟩ := readDRI_spec l.parser hfit ho
    rw [hread]
    simp only [bind, Except.bind, pure, Except.pure]
    by_cases hr : r = 0
    · subst hr
      rw [hzero rfl]
      rw [show (l.driFound || (0 : Int) == 0) = true from Bool.or_true _]
      exact ⟨_, rfl, hle, .restart hdri next⟩
    · rw [hother hr, show (l.driFound || r == 0) = l.driFound by simp [hr]]
      exact ⟨_, rfl, hle, .skipped next⟩
  · rw [if_neg hdri]
    exact ⟨_, rfl, le_refl _, .skipped _⟩

/-! ### The loop -/

def MarkerAt (data : List Byte) (m : Byte) (n : Nat) : Prop := data[n]? = some startMarker ∧ data[n + 1]? = some m

/-- A buffer that ends with a marker whose size is missing, or all of it but one byte. -/
def EndsInHeader (data : List Byte) : Prop :=
  ∃ front m, HeaderMarker m ∧ (data = front ++ [startMarker, m] ∨ ∃ b, data = front ++ [startMarker, m, b])

/-- The loop of `parse` takes another pass. -/
def GoesOn (data : List Byte) (l : ParseLoop) : Prop := l.sosFound = false ∧ l.offset < data.length

/-- The next marker stands in front of a table that has no place in the memory of the tables. -/
def PassOutside (data : List Byte) (l : ParseLoop) : Prop :=
  ∃ n, scanJpegMarker data l.offset = .ok (dqtMarker, n) ∧ BadTables data n

/-- The loop comes to such a table. -/
def LoopOutside (data : List Byte) (l : ParseLoop) : Prop :=
  ∃ l', Relation.ReflTransGen (fun l l' => GoesOn data l ∧ parsePass data l = .ok (.next l')) l l' ∧ GoesOn data l' ∧
    PassOutside data l'

/-- The parser comes to a segment with a table that has no place in the memory of the tables. -/
def TableOutside (p : JpegFrameParser) (data : List Byte) : Prop := LoopOutside data (.start p)

/-- A pass of the loop that goes on. -/
inductive PassTo (data : List Byte) (l : ParseLoop) : ParseLoop → Prop
  | marker {n : Nat} {m : Byte} {l' : ParseLoop} (hm : MarkerAt data m n) (h : Handled data l m (n + 2) l') : PassTo data l l'
  | none : PassTo data l { l with offset := data.length }

section Loop

variable {data : List Byte}

theorem endsInHeader_of_marker {n : Nat} {m : Byte} (hm : MarkerAt data m n) (hh : HeaderMarker m)
    (hle : n + 2 ≤ data.length) (hlt : data.length < n + 4) : EndsInHeader data := by
  have hsplit : data = data.take n ++ startMarker :: m :: data.drop (n + 2) := by
    have h₁ : data[n] = startMarker := by
      have := hm.1
      rw [List.getElem?_eq_getElem (by omega)] at this
      exact Option.some.inj this
    have h₂ : data[n + 1] = m := by
      have := hm.2
      rw [List.getElem?_eq_getElem (by omega)] at this
      exact Option.some.inj this
    calc data = data.take n ++ data.drop n := (List.take_append_drop n data).symm
      _ = data.take n ++ startMarker :: m :: data.drop (n + 2) := by
        rw [List.drop_eq_getElem_cons (by omega), h₁, List.drop_eq_getElem_cons (by omega), h₂]
  have hlen : (data.drop (n + 2)).length < 2 := by
    rw [List.length_drop]
    omega
  refine ⟨data.take n, m, hh, ?_⟩
  cases hrest : data.drop (n + 2) with
  | nil =>
    left
    rw [hrest] at hsplit
    exact hsplit
  | cons b rest =>
    right
    rw [hrest] at hlen hsplit
    simp only [List.length_cons] at hlen
    have hnil : rest = [] := List.eq_nil_of_length_eq_zero (by omega)
    subst hnil
    exact ⟨b, hsplit⟩

/-- All outcomes of a pass; the loop moves on. -/
theorem parsePass_cases (hfit : SumsFit data) {l : ParseLoop} (ho : l.offset < data.length) :
    (parsePass data l = .error .read ∧ EndsInHeader data) ∨ (parsePass data l = .error .write ∧ PassOutside data l) ∨
      (∃ p, parsePass data l = .ok (.invalidFormat p)) ∨
      ∃ l', parsePass data l = .ok (.next l') ∧ l.offset < l'.offset ∧ PassTo data l l' := by
  unfold parsePass
  rcases scanJpegMarker_cases ho with hscan | ⟨n, m, hn, hle, hstart, hm, hscan⟩
  · right; right; right
    rw [hscan]
    exact ⟨_, rfl, ho, .none⟩
  · have hmark : MarkerAt data m n := ⟨hstart, hm⟩
    rw [hscan]
    rcases handleMarker_cases hfit hle l m with ⟨herr, hh, hlt⟩ | ⟨herr, rfl, hbad⟩ | ⟨p, hp, -, -⟩ | ⟨l', hl', hlt, hh⟩
    · left
      exact ⟨herr, endsInHeader_of_marker hmark hh hle hlt⟩
    · right; left
      exact ⟨herr, n + 2, hscan, hbad⟩
    · right; right; left
      exact ⟨p, hp⟩
    · right; right; right
      exact ⟨l', hl', by omega, .marker hmark hh⟩

/-- All outcomes of the loop: it comes to an end behind a scan header or the buffer. -/
theorem parseLoop_cases (hfit : SumsFit data) {fuel : Nat} {l : ParseLoop} (hfuel : data.length ≤ l.offset + fuel) :
    (parseLoop data fuel l = .error .read ∧ EndsInHeader data) ∨
      (parseLoop data fuel l = .error .write ∧ LoopOutside data l) ∨
      (∃ p, parseLoop data fuel l = .ok (.invalidFormat p)) ∨
      ∃ l', parseLoop data fuel l = .ok (.next l') ∧ Relation.ReflTransGen (PassTo data) l l' ∧
        (l'.sosFound = true ∨ data.length ≤ l'.offset) := by
  induction fuel generalizing l with
  | zero =>
    right; right; right
    exact ⟨l, parseLoop_done fun h => by omega, .refl, .inr hfuel⟩
  | succ fuel ih =>
    by_cases hgo : l.sosFound = false ∧ l.offset < data.length
    swap
    · right; right; right
      refine ⟨l, parseLoop_done hgo, .refl, ?_⟩
      by_cases hs : l.sosFound = true
      · exact .inl hs
      · right
        simp only [Bool.not_eq_true] at hs
        push Not at hgo
        exact hgo hs
    obtain ⟨hs, ho⟩ := hgo
    rcases parsePass_cases hfit ho with ⟨herr, hend⟩ | ⟨herr, hout⟩ | ⟨p, hp⟩ | ⟨l', hl', hlt, hpass⟩
    · left
      exact ⟨parseLoop_error hs ho herr, hend⟩
    · right; left
      exact ⟨parseLoop_error hs ho herr, l, .refl, ⟨hs, ho⟩, hout⟩
    · right; right; left
      exact ⟨p, parseLoop_invalid hs ho hp⟩
    · rw [parseLoop_next hs ho hl']
      rcases ih (show data.length ≤ l'.offset + fuel by omega) with
        herr | ⟨herr, l'', hsteps, hout⟩ | hp | ⟨l'', hl'', hsteps, hend⟩
      · exact .inl herr
      · exact .inr (.inl ⟨herr, l'', .head ⟨⟨hs, ho⟩, hl'⟩ hsteps, hout⟩)
      · exact .inr (.inr (.inl hp))
      · exact .inr (.inr (.inr ⟨l'', hl'', .head hpass hsteps, hend⟩))

theorem parsePass_outside (hfit : SumsFit data) {l : ParseLoop} (ho : l.offset < data.length) (h : PassOutside data l) :
    parsePass data l = .error .write := by
  obtain ⟨n, hscan, hbad⟩ := h
  have hn : n ≤ data.length := by
    rcases scanJpegMarker_cases ho with hend | ⟨k, m, -, hle, -, -, hm⟩
    · rw [hend] at hscan
      cases hscan
    · rw [hm] at hscan
      cases hscan
      exact hle
  have hread := (readDQT_spec l.parser hfit hn).resolve_right fun hok => hok.1 hbad
  unfold parsePass
  rw [hscan]
  show handleMarker data l dqtMarker n = _
  unfold handleMarker
  rw [if_neg (by decide), if_neg (by decide), if_pos rfl, hread.1]
  rfl

/-- A table that is outside stops the loop. -/
theorem parseLoop_outside (hfit : SumsFit data) {fuel : Nat} {l : ParseLoop} (hfuel : data.length ≤ l.offset + fuel)
    (h : LoopOutside data l) : parseLoop data fuel l = .error .write := by
  obtain ⟨l', hsteps, ⟨hs, ho⟩, hout⟩ := h
  induction hsteps using Relation.ReflTransGen.head_induction_on generalizing fuel with
  | refl =>
    obtain ⟨fuel, rfl⟩ : ∃ k, fuel = k + 1 := ⟨fuel - 1, by omega⟩
    exact parseLoop_error hs ho (parsePass_outside hfit ho hout)
  | @head l l₁ hstep _ ih =>
    obtain ⟨⟨hs₁, ho₁⟩, hpass⟩ := hstep
    obtain ⟨fuel, rfl⟩ : ∃ k, fuel = k + 1 := ⟨fuel - 1, by omega⟩
    -- the pass moved on, so what is left of the fuel is enough for the rest
    have hlt : l.offset < l₁.offset := by
      rcases parsePass_cases hfit ho₁ with ⟨herr, -⟩ | ⟨herr, -⟩ | ⟨p, hp⟩ | ⟨l₂, hl₂, hlt, -⟩
      · rw [herr] at hpass
        cases hpass
      · rw [herr] at hpass
        cases hpass
      · rw [hp] at hpass
        cases hpass
      · rw [hl₂] at hpass
        cases hpass
        exact hlt
    rw [parseLoop_next hs₁ ho₁ hpass]
    exact ih (by omega)

/-- All outcomes of `parse`. -/
theorem parse_cases (hfit : SumsFit data) (p : JpegFrameParser) :
    (p.parse data = .error .read ∧ EndsInHeader data) ∨ (p.parse data = .error .write ∧ TableOutside p data) ∨
      (∃ q, p.parse data = .ok (q, -1)) ∨
      ∃ l, p.parse data = .ok (l.finish data.length) ∧ Relation.ReflTransGen (PassTo data) (.start p) l ∧
        (l.sosFound = true ∨ data.length ≤ l.offset) := by
  have hfuel : data.length ≤ (ParseLoop.start p).offset + data.length := Nat.le_add_left _ _
  unfold JpegFrameParser.parse
  rcases parseLoop_cases hfit hfuel with ⟨herr, hend⟩ | ⟨herr, hout⟩ | ⟨q, hq⟩ | ⟨l, hl, hsteps⟩
  · left
    rw [herr]
    exact ⟨rfl, hend⟩
  · right; left
    rw [herr]
    exact ⟨rfl, hout⟩
  · right; right; left
    rw [hq]
    exact ⟨q, rfl⟩
  · right; right; right
    rw [hl]
    exact ⟨l, rfl, hsteps⟩

/-- A write outside of the tables is one of a table that the parser comes to. -/
theorem parse_write_iff (hfit : SumsFit data) (p : JpegFrameParser) :
    p.parse data = .error .write ↔ TableOutside p data := by
  constructor
  · intro h
    rcases parse_cases hfit p with ⟨herr, -⟩ | ⟨-, hout⟩ | ⟨q, hq⟩ | ⟨l, hl, -⟩
    · rw [h] at herr
      cases herr
    · exact hout
    · rw [h] at hq
      cases hq
    · rw [h] at hl
      cases hl
  · intro h
    unfold JpegFrameParser.parse
    rw [parseLoop_outside hfit (Nat.le_add_left _ _) h]
    rfl

end Loop

/-! ### A buffer that ends with the end of the image -/

theorem not_endsInHeader {front : List Byte} : ¬ EndsInHeader (front ++ [startMarker, eoiMarker]) := by
  rintro ⟨front', m, hm, h | ⟨b, h⟩⟩
  · have hlast := congrArg List.getLast? h
    simp only [List.getLast?_append, List.getLast?_cons_cons, List.getLast?_singleton, Option.some_or,
      Option.some.injEq] at hlast
    subst hlast
    rcases hm with hm | hm | hm | hm <;> exact absurd hm (by decide)
  · have hrev := congrArg List.reverse h
    simp only [List.reverse_append, List.reverse_cons, List.reverse_nil, List.nil_append, List.cons_append,
      List.cons.injEq] at hrev
    obtain ⟨-, rfl, -⟩ := hrev
    rcases hm with hm | hm | hm | hm <;> exact absurd hm (by decide)

/-- The parser reads nothing outside of a buffer that ends with `FF D9`, whatever is in front of it, and comes to an end; it
writes outside of the tables exactly if it comes to a table that has no place there. -/
theorem parse_complete (p : JpegFrameParser) {front : List Byte} (hfit : SumsFit (front ++ [startMarker, eoiMarker])) :
    (∃ q r, p.parse (front ++ [startMarker, eoiMarker]) = .ok (q, r)) ∧
        ¬ TableOutside p (front ++ [startMarker, eoiMarker]) ∨
      p.parse (front ++ [startMarker, eoiMarker]) = .error .write ∧
        TableOutside p (front ++ [startMarker, eoiMarker]) := by
  rw [← parse_write_iff hfit]
  rcases parse_cases hfit p with ⟨-, hend⟩ | ⟨hout, -⟩ | ⟨q, hq⟩ | ⟨l, hl, -⟩
  · exact absurd hend not_endsInHeader
  · exact .inr ⟨hout, hout⟩
  · left
    rw [hq]
    exact ⟨⟨q, -1, rfl⟩, nofun⟩
  · left
    rw [hl]
    exact ⟨⟨_, _, rfl⟩, nofun⟩

/-- A segment of two tables of 64 bytes, the first with number 0, in front of a comment. -/
def twoTables (head : Byte) : List Byte :=
  [0xFF, 0xD8, 0xFF, 0xDB, 0, 132, 0x00] ++ List.replicate 64 8 ++ head :: List.replicate 64 8 ++ [0xFF, 0xFE, 0, 3, 0x41]

/-- The memory has room for table 3 of 64 bytes, and not for table 4. -/
theorem parse_complete_twoTables :
    (∃ q r, JpegFrameParser.new.parse (twoTables 0x03 ++ [startMarker, eoiMarker]) = .ok (q, r)) ∧
      TableOutside .new (twoTables 0x04 ++ [startMarker, eoiMarker]) := by
  have hfit (head : Byte) : SumsFit (twoTables head ++ [startMarker, eoiMarker]) := by simp [SumsFit, twoTables]
  have hthree : (JpegFrameParser.new.parse (twoTables 0x03 ++ [startMarker, eoiMarker])).isOk = true := by
    decide +kernel
  have hfour : (JpegFrameParser.new.parse (twoTables 0x04 ++ [startMarker, eoiMarker])).isOk = false := by
    decide +kernel
  constructor
  · rcases parse_complete .new (hfit 0x03) with ⟨hok, -⟩ | ⟨herr, -⟩
    · exact hok
    · rw [herr] at hthree
      cases hthree
  · rcases parse_complete .new (hfit 0x04) with ⟨⟨q, r, hok⟩, -⟩ | ⟨-, hout⟩
    · rw [hok] at hfour
      cases hfour
    · exact hout

/-! ### What an accepted buffer holds -/

/-- A marker of a frame header that is supported, with its dimensions and its type. -/
structure FrameAt (data : List Byte) (n width height type : Nat) : Prop where
  marker : MarkerAt data sofMarker n
  supported : Supported data (n + 2)
  width : width = beWord data (n + 7) / 8
  height : height = beWord data (n + 5) / 8
  type : type = if (compAt data (n + 10)).samp = 0x21 then 0 else 1

/-- Every flag of the loop stands for a segment that the buffer holds. -/
structure Found (data : List Byte) (l : ParseLoop) : Prop where
  frame : l.sofFound = true → ∃ n, FrameAt data n l.parser.width l.parser.height l.parser.type
  tables : l.dqtFound = true → ∃ n, MarkerAt data dqtMarker n
  scan : l.sosFound = true → ∃ n, MarkerAt data sosMarker n ∧ l.headerSize = n + 2 + beWord data (n + 2)
  noScan : l.sosFound = false → l.headerSize = 0
  restart : l.driFound = true → ∃ n, MarkerAt data driMarker n ∧ l.parser.restartInterval = beWord data (n + 4)
  noRestart : l.driFound = false → l.parser.restartInterval = 0

theorem Found.start (data : List Byte) (p : JpegFrameParser) : Found data (.start p) where
  frame h := absurd h (by simp [ParseLoop.start])
  tables h := absurd h (by simp [ParseLoop.start])
  scan h := absurd h (by simp [ParseLoop.start])
  noScan _ := rfl
  restart h := absurd h (by simp [ParseLoop.start])
  noRestart _ := rfl

theorem Found.pass {data : List Byte} {l l' : ParseLoop} (h : Found data l) (hp : PassTo data l l') : Found data l' := by
  cases hp with
  | none => exact ⟨h.frame, h.tables, h.scan, h.noScan, h.restart, h.noRestart⟩
  | @marker n m _ hm hh =>
    cases hh with
    | skipped => exact ⟨h.frame, h.tables, h.scan, h.noScan, h.restart, h.noRestart⟩
    | frame hsof hs =>
      subst hsof
      exact ⟨fun _ => ⟨n, hm, hs, rfl, rfl, rfl⟩, h.tables, h.scan, h.noScan, h.restart, h.noRestart⟩
    | tables hdqt =>
      subst hdqt
      exact ⟨h.frame, fun _ => ⟨n, hm⟩, h.scan, h.noScan, h.restart, h.noRestart⟩
    | scan hsos =>
      subst hsos
      exact ⟨h.frame, h.tables, fun _ => ⟨n, hm, rfl⟩, fun hs => absurd hs (by simp), h.restart, h.noRestart⟩
    | restart hdri =>
      subst hdri
      exact ⟨h.frame, h.tables, h.scan, h.noScan, fun _ => ⟨n, hm, rfl⟩, fun hd => absurd hd (by simp)⟩

theorem Found.passes {data : List Byte} {l l' : ParseLoop} (h : Found data l)
    (hp : Relation.ReflTransGen (PassTo data) l l') : Found data l' := by
  induction hp with
  | refl => exact h
  | tail _ hlast ih => exact ih.pass hlast

/-- The scan that is given out for a buffer: what is behind a scan header, up to the end of the buffer; or, where the size
in that header goes beyond the buffer, an offset outside of it with a length close to 2³²; or the whole buffer. -/
inductive ScanAt (data : List Byte) : Option Nat → Nat → Prop
  | inside {n : Nat} (hm : MarkerAt data sosMarker n) {scandata scandataLength : Nat}
    (hs : scandata = n + 2 + beWord data (n + 2)) (hl : scandata + scandataLength = data.length) :
    ScanAt data (some scandata) scandataLength
  -- the offset and the length are sums and differences of 32 bits
  | outside {n : Nat} (hm : MarkerAt data sosMarker n) {scandata scandataLength : Nat}
    (hs : scandata = n + 2 + beWord data (n + 2)) (hout : data.length < scandata)
    (hl : scandata + scandataLength = data.length + 2 ^ 32) : ScanAt data (some scandata) scandataLength
  | whole : ScanAt data (some 0) data.length

/-- The buffers that the parser accepts: a supported frame header, whose dimensions in blocks fit in a byte, tables, and a
scan. -/
structure Accepted (data : List Byte) (q : JpegFrameParser) : Prop where
  frame : ∃ n type, FrameAt data n q.width q.height type ∧
    ((∃ k, MarkerAt data driMarker k ∧ q.restartInterval = beWord data (k + 4) ∧ q.type = type + 64) ∨
      q.restartInterval = 0 ∧ q.type = type)
  dimensions : (1 ≤ q.width ∧ q.width ≤ 255) ∧ 1 ≤ q.height ∧ q.height ≤ 255
  tables : ∃ n, MarkerAt data dqtMarker n
  scan : ScanAt data q.scandata q.scandataLength

/-- What `parse` gives out with a scan header of that size. -/
theorem scanAt_of_marker {data : List Byte} {n : Nat} (hfit : SumsFit data) (hm : MarkerAt data sosMarker n) :
    ScanAt data (some (n + 2 + beWord data (n + 2)))
      (uint (data.length + 2 ^ 32 - (n + 2 + beWord data (n + 2)))) := by
  have hlt : n + 1 < data.length := (List.getElem?_eq_some_iff.1 hm.2).1
  have hsize : beWord data (n + 2) < 2 ^ 16 := beWord_lt
  have hlen : data.length + 2 ^ 16 ≤ 2 ^ 32 := hfit
  by_cases hin : n + 2 + beWord data (n + 2) ≤ data.length
  · refine .inside hm rfl ?_
    have hsub : data.length + 2 ^ 32 - (n + 2 + beWord data (n + 2)) =
        data.length - (n + 2 + beWord data (n + 2)) + 2 ^ 32 := by omega
    rw [hsub, uint, Nat.add_mod_right, Nat.mod_eq_of_lt (by omega)]
    omega
  · refine .outside hm rfl (by omega) ?_
    rw [uint_eq (by omega)]
    omega

theorem parse_accepted {p q : JpegFrameParser} {data : List Byte} (hfit : SumsFit data) (h : p.parse data = .ok (q, 0)) :
    Accepted data q := by
  have hlen : data.length < 2 ^ 32 := by
    unfold SumsFit at hfit
    omega
  rcases parse_cases hfit p with ⟨herr, -⟩ | ⟨herr, -⟩ | ⟨q', hq⟩ | ⟨l, hl, hsteps, -⟩
  · rw [h] at herr
    cases herr
  · rw [h] at herr
    cases herr
  · rw [h] at hq
    cases hq
  have hfound := (Found.start data p).passes hsteps
  rw [h] at hl
  have hfin : l.finish data.length = (q, 0) := (Except.ok.inj hl).symm
  unfold ParseLoop.finish at hfin
  by_cases hflags : l.dqtFound = false ∨ l.sofFound = false
  · rw [if_pos hflags] at hfin
    cases hfin
  by_cases hdim : l.parser.width = 0 ∨ l.parser.height = 0
  · rw [if_neg hflags, if_pos hdim] at hfin
    cases hfin
  rw [if_neg hflags, if_neg hdim] at hfin
  obtain ⟨rfl, -⟩ := Prod.mk.inj hfin
  simp only [not_or, Bool.not_eq_false] at hflags
  obtain ⟨n, hframe⟩ := hfound.frame hflags.2
  refine ⟨⟨n, l.parser.type, ⟨hframe.marker, hframe.supported, hframe.width, hframe.height, hframe.type⟩, ?_⟩, ?_,
    hfound.tables hflags.1, ?_⟩
  · cases hd : l.driFound with
    | true =>
      obtain ⟨k, hk, hr⟩ := hfound.restart hd
      exact .inl ⟨k, hk, hr, rfl⟩
    | false => exact .inr ⟨hfound.noRestart hd, rfl⟩
  · have hwidth : beWord data (n + 7) ≤ 2040 := hframe.supported.width.2
    have hheight : beWord data (n + 5) ≤ 2040 := hframe.supported.height.2
    have hw : l.parser.width = beWord data (n + 7) / 8 := hframe.width
    have hh : l.parser.height = beWord data (n + 5) / 8 := hframe.height
    show (1 ≤ l.parser.width ∧ l.parser.width ≤ 255) ∧ 1 ≤ l.parser.height ∧ l.parser.height ≤ 255
    omega
  · cases hs : l.sosFound with
    | true =>
      obtain ⟨k, hk, hsize⟩ := hfound.scan hs
      show ScanAt data (some l.headerSize) (uint (data.length + 2 ^ 32 - l.headerSize))
      rw [hsize]
      exact scanAt_of_marker hfit hk
    | false =>
      show ScanAt data (some l.headerSize) (uint (data.length + 2 ^ 32 - l.headerSize))
      rw [hfound.noScan hs, Nat.sub_zero, uint, Nat.add_mod_right, Nat.mod_eq_of_lt hlen]
      exact .whole

/-- An image with no table in the segment of the tables and no byte in the scan, up to the size of the scan header. -/
def smallest (size : List Byte) : List Byte :=
  [0xFF, 0xD8, 0xFF, 0xDB, 0, 2, 0xFF, 0xC0, 0, 17, 8, 0, 8, 0, 8, 3, 1, 0x21, 0, 2, 0x11, 0, 3, 0x11, 0, 0xFF, 0xDA] ++ size

/-- The scan of the first is empty, and that of the second far outside of the 29 bytes. -/
theorem parse_accepted_smallest :
    Accepted (smallest [0, 2]) { JpegFrameParser.new with width := 1, height := 1, scandata := some 29 } ∧
      Accepted (smallest [0xFF, 0xFF])
        { JpegFrameParser.new with width := 1, height := 1, scandata := some 65562, scandataLength := 4294901763 } :=
  ⟨parse_accepted (p := .new) (by decide) rfl, parse_accepted (p := .new) (by decide) rfl⟩

end RcCarControl.Video
