import Mathlib.Data.Nat.Basic
import Mathlib.Order.Monotone.Defs
import Whittle.Proofs.Edit.Gap
import Whittle.Proofs.Edit.Overlap
import Whittle.Proofs.Text.Truncation
import Whittle.Term.Outline

/-
  From bytes of a line to its characters.

  Key definitions include:
    * `Place.IsBetween`
    * `Place.IsByteOf`
    * `Place.byteOffset`
    * `Extent.bytesIn`

  Main statements:
    * `le_charactersIn_iff`
    * `Place.IsBetween.isAtMost_iff`
    * `Extent.encode_textIn`
    * `columns_followBytes`

  A column counts the characters that are whole within some
  bytes: so many are in there just if the bytes reach to their
  end.  All that is said of columns follows from this.
-/

------------------------------------------------------------
-- Whole Characters
------------------------------------------------------------

namespace Whittle

variable {line : Text} {bytes k : Nat}

theorem charactersIn_cons
    (c : Char)
    (rest : Text)
    (bytes : Nat) :
    charactersIn (c :: rest) bytes =
      if bytes < c.utf8Size then 0
      else charactersIn rest (bytes - c.utf8Size) + 1 := by
  have hLength := String.length_utf8EncodeChar c
  unfold charactersIn
  change
    (decodeIgnoring
      ((String.utf8EncodeChar c ++ Utf8.encode rest).take
        bytes)).length = _
  split
  · rename_i hShort
    rw [List.take_append_of_le_length (by omega),
      decodeIgnoring_take_encodeChar hShort]
    rfl
  · rw [List.take_append, List.take_of_length_le (by omega),
      hLength, decodeIgnoring_encodeChar]
    rfl

/-
  So many characters are whole within some bytes just if the
  line has them and the bytes reach to their end.
-/
theorem le_charactersIn_iff :
    k ≤ charactersIn line bytes ↔
      k ≤ line.length ∧ Utf8.size (line.take k) ≤ bytes := by
  induction line generalizing bytes k with
  | nil => simp [charactersIn, Utf8.encode, decodeIgnoring,
      Utf8.decodeFrom]
  | cons c rest ih =>
      cases k with
      | zero => simp
      | succ k =>
          rw [charactersIn_cons, List.take_succ_cons,
            Utf8.size_cons, List.length_cons,
            Nat.add_le_add_iff_right]
          split
          · omega
          · rw [Nat.add_le_add_iff_right, ih]
            omega

/- Characters of one, two and three bytes, byte by byte. -/
example :
    (List.range 8).map (charactersIn "aé€".toList) =
      [0, 1, 1, 2, 2, 2, 3, 3] := by
  decide +kernel

theorem charactersIn_le_length
    (line : Text)
    (bytes : Nat) :
    charactersIn line bytes ≤ line.length :=
  (le_charactersIn_iff.mp (Nat.le_refl _)).1

theorem charactersIn_mono
    (line : Text) :
    Monotone (charactersIn line) := by
  intro a b hLe
  obtain ⟨hLength, hSize⟩ :=
    le_charactersIn_iff.mp (Nat.le_refl (charactersIn line a))
  exact le_charactersIn_iff.mpr ⟨hLength, hSize.trans hLe⟩

/- The bytes of some characters hold just these. -/
theorem charactersIn_size
    (hLe : k ≤ line.length) :
    charactersIn line (Utf8.size (line.take k)) = k := by
  apply Nat.le_antisymm
  · obtain ⟨hLength, hSize⟩ :=
      le_charactersIn_iff.mp
        (Nat.le_refl (charactersIn line (Utf8.size (line.take k))))
    by_contra hMore
    have hLt := Utf8.size_take_lt (t := line)
      (Nat.not_le.mp hMore) (by omega)
    omega
  · exact le_charactersIn_iff.mpr ⟨hLe, Nat.le_refl _⟩

end Whittle

------------------------------------------------------------
-- Places On Lines
------------------------------------------------------------

namespace Whittle

namespace Place

/- The line that a place is on, nothing outside of the text. -/
def row
    (p : Place)
    (rows : List Text) : Text :=
  rowOf rows (p.line - 1)

/- The place is on a line of the text. -/
def IsOnLine
    (p : Place)
    (rows : List Text) : Prop :=
  1 ≤ p.line ∧ p.line ≤ rows.length

/-
  The place lies between characters: its bytes are those of
  the first characters of its line.
-/
structure IsBetween
    (p : Place)
    (rows : List Text) : Prop where
  onLine : p.IsOnLine rows
  whole :
    ∃ k ≤ (p.row rows).length,
      p.bytes = Utf8.size ((p.row rows).take k)

/-
  The byte at the place belongs to the character at a position
  of the same line.  The last character of a line is the
  newline behind it.
-/
structure IsByteOf
    (p : Place)
    (rows : List Text)
    (q : Position) : Prop where
  onLine : p.IsOnLine rows
  sameLine : q.line = p.line
  within :
    ∃ k ≤ (p.row rows).length,
      q.column = k + 1 ∧
        Utf8.size ((p.row rows ++ ['\n']).take k) ≤ p.bytes ∧
        p.bytes < Utf8.size ((p.row rows ++ ['\n']).take (k + 1))

/- The first of two places, line by line. -/
def IsBefore
    (p q : Place) : Prop :=
  p.line < q.line ∨ p.line = q.line ∧ p.bytes < q.bytes

/- The first of two places, or the same. -/
def IsAtMost
    (p q : Place) : Prop :=
  p.line < q.line ∨ p.line = q.line ∧ p.bytes ≤ q.bytes

/- Where a span begins that starts at the place. -/
def asFirst
    (p : Place)
    (ls : Array Text) : Position :=
  ⟨p.line, columnOf ls p + 1⟩

/- Where a span ends that stops at the place. -/
def asLast
    (p : Place)
    (ls : Array Text) : Position :=
  ⟨p.line, columnOf ls p⟩

variable {rows : List Text} {p p' : Place} {q : Position} {k : Nat}

/- The column of a place on a line of the text. -/
theorem IsOnLine.columnOf_eq
    (hLine : p.IsOnLine rows) :
    columnOf rows.toArray p = charactersIn (p.row rows) p.bytes := by
  have hLt : p.line - 1 < rows.length := by
    have := hLine.1
    have := hLine.2
    omega
  unfold columnOf row rowOf
  rw [List.getElem?_toArray, List.getElem?_eq_getElem hLt]
  rfl

/- A column is on its line, or at its end. -/
theorem IsOnLine.columnOf_le
    (hLine : p.IsOnLine rows) :
    columnOf rows.toArray p ≤ (p.row rows).length := by
  rw [hLine.columnOf_eq]
  exact charactersIn_le_length _ _

theorem columnOf_mono
    (ls : Array Text)
    (line : Nat) :
    Monotone fun bytes => columnOf ls ⟨line, bytes⟩ := by
  intro a b hLe
  simp only [columnOf]
  split
  · exact hLe
  · exact charactersIn_mono _ hLe

/- The bytes before a place between characters. -/
theorem IsBetween.bytes_eq
    (hBetween : p.IsBetween rows) :
    p.bytes =
      Utf8.size ((p.row rows).take (columnOf rows.toArray p)) := by
  obtain ⟨k, hLe, hBytes⟩ := hBetween.whole
  rw [hBetween.onLine.columnOf_eq, hBytes, charactersIn_size hLe]

/- The position of a byte is that of its character. -/
theorem IsByteOf.asFirst_eq
    (hByte : p.IsByteOf rows q) :
    p.asFirst rows.toArray = q := by
  obtain ⟨k, hLe, hColumn, hFrom, hTo⟩ := hByte.within
  -- up to the last character the newline is not in the way
  have hCount :
      charactersIn (p.row rows) p.bytes = k := by
    apply Nat.le_antisymm
    · by_contra hMore
      obtain ⟨hLength, hSize⟩ :=
        le_charactersIn_iff.mp
          (Nat.succ_le_of_lt (Nat.not_le.mp hMore))
      rw [List.take_append_of_le_length hLength] at hTo
      exact absurd hSize (Nat.not_le.mpr hTo)
    · rw [List.take_append_of_le_length hLe] at hFrom
      exact le_charactersIn_iff.mpr ⟨hLe, hFrom⟩
  obtain ⟨line, column⟩ := q
  unfold asFirst
  rw [hByte.onLine.columnOf_eq, hCount]
  exact congrArg₂ Position.mk hByte.sameLine.symm hColumn.symm

/- Positions are in the order of the places they are made from. -/
theorem IsAtMost.atMost
    (ls : Array Text)
    (hLe : p.IsAtMost p') :
    (p.asFirst ls).atMost (p'.asFirst ls) = true ∧
      (p.asLast ls).atMost (p'.asLast ls) = true := by
  have hColumn : p.line = p'.line → columnOf ls p ≤ columnOf ls p' := by
    intro hLine
    have hBytes : p.bytes ≤ p'.bytes := by
      unfold IsAtMost at hLe
      omega
    obtain ⟨line, bytes⟩ := p
    cases hLine
    exact columnOf_mono ls _ hBytes
  unfold IsAtMost at hLe
  rw [Position.atMost_iff, Position.atMost_iff]
  unfold asFirst asLast
  dsimp only
  omega

/-
  A place between characters is at most another one just if
  its position is.
-/
theorem IsBetween.isAtMost_iff
    (hBetween : p.IsBetween rows) :
    p.IsAtMost p' ↔
      (p.asFirst rows.toArray).atMost (p'.asFirst rows.toArray) =
        true := by
  refine ⟨fun hLe => (hLe.atMost _).1, fun hLe => ?_⟩
  rw [Position.atMost_iff] at hLe
  unfold asFirst at hLe
  dsimp only at hLe
  rcases hLe with hLt | ⟨hLine, hColumn⟩
  · exact .inl (Int.ofNat_lt.mp hLt)
  · have hSame : p.line = p'.line := Int.ofNat_inj.mp hLine
    have hRow : p'.row rows = p.row rows := by
      unfold row
      rw [hSame]
    have hOnLine : p'.IsOnLine rows := by
      unfold IsOnLine
      rw [← hSame]
      exact hBetween.onLine
    -- the bytes of `p'` reach to the last character before `p`
    have hWhole :
        columnOf rows.toArray p ≤
          charactersIn (p.row rows) p'.bytes := by
      rw [← hRow, ← hOnLine.columnOf_eq]
      omega
    refine .inr ⟨hSame, ?_⟩
    rw [hBetween.bytes_eq]
    exact (le_charactersIn_iff.mp hWhole).2

/-
  A place comes before one between characters just if its
  position does.
-/
theorem IsBetween.isBefore_iff
    (hBetween : p'.IsBetween rows) :
    p.IsBefore p' ↔
      (p.asFirst rows.toArray).before (p'.asFirst rows.toArray) =
        true := by
  have hAtMost :
      p'.IsAtMost p ↔
        (p'.asFirst rows.toArray).atMost (p.asFirst rows.toArray) =
          true :=
    hBetween.isAtMost_iff
  rw [Position.atMost_iff] at hAtMost
  rw [Position.before_iff]
  unfold IsAtMost at hAtMost
  unfold IsBefore
  omega

/- The last positions are in the order of the first ones. -/
theorem before_asLast_iff
    (ls : Array Text) :
    (p.asLast ls).before (p'.asLast ls) = true ↔
      (p.asFirst ls).before (p'.asFirst ls) = true := by
  rw [Position.before_iff, Position.before_iff]
  unfold asFirst asLast
  dsimp only
  omega

/- What comes before the first position is at most the last. -/
theorem before_asFirst_iff
    (ls : Array Text)
    (q : Position) :
    q.before (p.asFirst ls) = true ↔
      q.atMost (p.asLast ls) = true := by
  rw [Position.before_iff, Position.atMost_iff]
  unfold asFirst asLast
  dsimp only
  omega

end Place

end Whittle

------------------------------------------------------------
-- Offsets In Bytes
------------------------------------------------------------

namespace Whittle

theorem Text.size_ofLines_concat
    (ls : List Text)
    (l : Text) :
    Utf8.size (ofLines (ls ++ [l])) =
      total (ls.map fun l => Utf8.size l + 1) + Utf8.size l := by
  induction ls with
  | nil => simp [total]
  | cons first rest ih =>
      rw [List.cons_append, ofLines_cons_of_ne_nil first (by simp),
        Utf8.size_append, Utf8.size_cons, ih, List.map_cons, total]
      have hNewline : '\n'.utf8Size = 1 := rfl
      omega

namespace Place

/- The number of bytes before a place in the whole text. -/
def byteOffset
    (p : Place)
    (rows : List Text) : Nat :=
  total ((rows.take (p.line - 1)).map fun l => Utf8.size l + 1) +
    p.bytes

/- The number of characters before a place in the whole text. -/
def offset
    (p : Place)
    (rows : List Text) : Nat :=
  Region.lineOffset rows (p.line - 1) + columnOf rows.toArray p

variable {rows : List Text} {p : Place}

theorem IsBetween.size_take
    (hBetween : p.IsBetween rows) :
    Utf8.size ((Text.ofLines rows).take (p.offset rows)) =
      p.byteOffset rows := by
  have hLt : p.line - 1 < rows.length := by
    have := hBetween.onLine.1
    have := hBetween.onLine.2
    omega
  have hColumn := hBetween.onLine.columnOf_le
  unfold offset byteOffset
  rw [Text.take_ofLines hLt hColumn, Text.size_ofLines_concat,
    hBetween.bytes_eq]
  rfl

/- The offset of a place, as that of its line and column. -/
theorem IsOnLine.offsetAt_eq
    (hLine : p.IsOnLine rows) :
    Region.offsetAt rows (p.line - 1) (columnOf rows.toArray p) =
      p.offset rows := by
  have hColumn := hLine.columnOf_le
  have hIndex : ((p.line : Int) - 1).toNat = p.line - 1 := by omega
  unfold Region.offsetAt offset
  rw [hIndex, Int.toNat_natCast]
  exact congrArg (_ + ·) (Nat.min_eq_left hColumn)

end Place

/- A region covers what stands from its start up to its stop. -/
theorem Region.textIn_eq_slice
    {r : Region}
    {ls : List Text}
    (hLines : r.IsOnLines ls) :
    r.textIn ls =
      ((Text.ofLines ls).drop (r.firstOffset ls)).take
        (r.endOffset ls - r.firstOffset ls) := by
  have hTest :
      (fun o => !r.covers ls o) =
        fun o =>
          !(decide (r.firstOffset ls ≤ o) &&
            decide (o < max (r.firstOffset ls) (r.endOffset ls))) := by
    funext o
    rw [covers_eq_denotes hLines]
    unfold denotes
    congr 1
    rw [Bool.eq_iff_iff]
    simp only [Bool.and_eq_true, decide_eq_true_eq]
    omega
  unfold textIn
  rw [hTest, Text.without_outside (Nat.le_max_left _ _)]
  congr 1
  omega

namespace Extent

/- The bytes of the text from one place up to the other. -/
def bytesIn
    (e : Extent)
    (rows : List Text) : Bytes :=
  ((Utf8.encode (Text.ofLines rows)).drop
    (e.first.byteOffset rows)).take
      (e.last.byteOffset rows - e.first.byteOffset rows)

variable {rows : List Text} {e : Extent}

/- A span begins and ends where its extent does. -/
theorem span_eq
    (ls : Array Text)
    (e : Extent) :
    e.span ls = ⟨e.first.asFirst ls, e.last.asLast ls⟩ :=
  rfl

/- What a span covers is written as the bytes of its extent. -/
theorem encode_textIn
    (hFirst : e.first.IsBetween rows)
    (hLast : e.last.IsBetween rows) :
    Utf8.encode ((e.span rows.toArray).region.textIn rows) =
      e.bytesIn rows := by
  have hLines : (e.span rows.toArray).region.IsOnLines rows := by
    have hFirst := hFirst.onLine
    have hLast := hLast.onLine
    unfold Place.IsOnLine at hFirst hLast
    unfold Region.IsOnLines
    rw [span_eq]
    unfold Span.region Place.asFirst Place.asLast
    dsimp only
    omega
  have hStart :
      (e.span rows.toArray).region.firstOffset rows =
        e.first.offset rows := by
    rw [← hFirst.onLine.offsetAt_eq]
    exact congrArg (Region.offsetAt rows _) (Int.add_sub_cancel _ 1)
  have hStop :
      (e.span rows.toArray).region.endOffset rows =
        e.last.offset rows :=
    hLast.onLine.offsetAt_eq
  rw [Region.textIn_eq_slice hLines, hStart, hStop,
    Utf8.encode_slice, hFirst.size_take, hLast.size_take]
  rfl

end Extent

end Whittle

------------------------------------------------------------
-- Columns
------------------------------------------------------------

namespace Whittle

/-
  Columns count characters where places count bytes.  On each
  line they grow with the bytes.  So many characters stand
  before a place just if the line has them and they end there
  at the latest: behind the first characters of a line it is
  their number, and a byte within a character has the position
  of this one.  For an extent between characters, the span has
  just the characters whose bytes lie in the extent, newlines
  included, and what it covers in the text is written as the
  bytes of the extent.  The order of places is never reversed,
  and a place comes before one between characters just if its
  positions do.
-/
theorem columns_followBytes
    (text : Text) :
    let rows := text.lines
    let ls := rows.toArray
    (∀ line, Monotone fun bytes => columnOf ls ⟨line, bytes⟩) ∧
      (∀ p : Place, p.IsOnLine rows →
        (∀ k, k ≤ columnOf ls p ↔
          k ≤ (p.row rows).length ∧
            Utf8.size ((p.row rows).take k) ≤ p.bytes) ∧
          (∀ k ≤ (p.row rows).length,
            p.bytes = Utf8.size ((p.row rows).take k) →
              columnOf ls p = k) ∧
          ∀ q, p.IsByteOf rows q → p.asFirst ls = q) ∧
      (∀ e : Extent, e.first.IsBetween rows → e.last.IsBetween rows →
        (∀ p q, p.IsByteOf rows q →
          (e.first.IsAtMost p ∧ p.IsBefore e.last ↔
            (e.span ls).first.atMost q = true ∧
              q.atMost (e.span ls).last = true)) ∧
          Utf8.encode ((e.span ls).region.textIn rows) =
            e.bytesIn rows) ∧
      (∀ p p' : Place, p.IsAtMost p' →
        (p.asFirst ls).atMost (p'.asFirst ls) = true ∧
          (p.asLast ls).atMost (p'.asLast ls) = true) ∧
      ∀ p p' : Place, p'.IsBetween rows →
        (p.IsBefore p' ↔
            (p.asFirst ls).before (p'.asFirst ls) = true) ∧
          (p.IsBefore p' ↔
            (p.asLast ls).before (p'.asLast ls) = true) ∧
          (p.IsBefore p' ↔
            (p.asFirst ls).atMost (p'.asLast ls) = true) := by
  intro rows ls
  refine ⟨Place.columnOf_mono ls, ?_, ?_,
    fun _ _ hLe => hLe.atMost ls, ?_⟩
  · intro p hLine
    have hColumn :
        columnOf ls p = charactersIn (p.row rows) p.bytes :=
      hLine.columnOf_eq
    rw [hColumn]
    refine ⟨fun k => le_charactersIn_iff, ?_,
      fun _ hByte => hByte.asFirst_eq⟩
    intro k hLe hBytes
    rw [hBytes, charactersIn_size hLe]
  · intro e hFirst hLast
    refine ⟨?_, Extent.encode_textIn hFirst hLast⟩
    intro p q hByte
    rw [hFirst.isAtMost_iff, hLast.isBefore_iff, hByte.asFirst_eq,
      Place.before_asFirst_iff, Extent.span_eq]
  · intro p p' hBetween
    have hBefore :
        p.IsBefore p' ↔
          (p.asFirst ls).before (p'.asFirst ls) = true :=
      hBetween.isBefore_iff
    rw [hBefore]
    exact ⟨Iff.rfl, (Place.before_asLast_iff ls).symm,
      Place.before_asFirst_iff ls _⟩

/- Characters of two, three and four bytes, on two lines. -/
theorem columns_followBytes_wide :
    let text : Text := "aé€\n𝄞b".toList
    let rows := text.lines
    let ls := rows.toArray
    let e : Extent := ⟨⟨1, 1⟩, ⟨2, 4⟩⟩
    let p : Place := ⟨1, 4⟩
    (p.IsOnLine rows ∧ p.IsByteOf rows ⟨1, 3⟩ ∧ columnOf ls p = 2) ∧
      ((⟨1, 3⟩ : Place).bytes = Utf8.size ("aé€".toList.take 2) ∧
        columnOf ls ⟨1, 3⟩ = 2) ∧
      ((e.first.IsBetween rows ∧ e.last.IsBetween rows) ∧
        e.span ls = .ofNumbers 1 2 2 1 ∧
        (e.first.IsAtMost p ∧ p.IsBefore e.last) ∧
        Utf8.encode ((e.span ls).region.textIn rows) =
          [0xC3, 0xA9, 0xE2, 0x82, 0xAC, 0x0A,
            0xF0, 0x9D, 0x84, 0x9E]) ∧
      (e.first.IsAtMost p ∧
        (e.first.asFirst ls).atMost (p.asFirst ls) = true) ∧
      (p.asFirst ls).before (e.last.asFirst ls) = true := by
  intro text rows ls e p
  have hOnLine : p.IsOnLine rows := by
    constructor <;> decide +kernel
  have hByte : p.IsByteOf rows ⟨1, 3⟩ :=
    ⟨hOnLine, rfl, 2, by decide +kernel⟩
  have hFirst : e.first.IsBetween rows :=
    ⟨by constructor <;> decide +kernel, 1, by decide +kernel⟩
  have hLast : e.last.IsBetween rows :=
    ⟨by constructor <;> decide +kernel, 1, by decide +kernel⟩
  obtain ⟨_, hColumns, hSpans, hOrder, hStrict⟩ :=
    columns_followBytes text
  have hInside : p.asFirst ls = ⟨1, 3⟩ :=
    (hColumns p hOnLine).2.2 _ hByte
  obtain ⟨hSame, hBytes⟩ := hSpans e hFirst hLast
  have hLe : e.first.IsAtMost p := .inr ⟨rfl, by decide⟩
  have hBefore : p.IsBefore e.last := .inl (by decide)
  have hExact : columnOf ls ⟨1, 3⟩ = 2 :=
    (hColumns ⟨1, 3⟩ (by constructor <;> decide +kernel)).2.1 2
      (by decide +kernel) (by decide +kernel)
  refine ⟨⟨hOnLine, hByte, ?_⟩, ⟨by decide +kernel, hExact⟩,
    ⟨⟨hFirst, hLast⟩, by decide +kernel,
      (hSame p _ hByte).mpr (by decide +kernel), ?_⟩,
    ⟨hLe, (hOrder _ _ hLe).1⟩,
    (hStrict _ _ hLast).1.mp hBefore⟩
  · have hColumn := congrArg Position.column hInside
    unfold Place.asFirst at hColumn
    dsimp only at hColumn
    omega
  · rw [hBytes]
    decide +kernel

end Whittle
