import Whittle.Edit.Gap
import Whittle.Proofs.Edit.Cutting
import Whittle.Proofs.Text.Lines

/-
  One gap before a node.

  Key definitions include:
    * `Position.IsIn`
    * `Region.textIn`
    * `gapStop`
    * `gapRegion`
    * `isRemovedGap`

  Main statements:
    * `Position.offsetIn_lt`
    * `Region.gapText_eq`
    * `gapEnd_eq`
    * `gapBefore_eq`

  Looking at a gap reaches into lines of the text only, if
  the node begins in the text, below the line after the text
  before it.  What is found depends on the blank rest of one
  line and on the text of the gap.
-/

------------------------------------------------------------
-- Places Of A Text
------------------------------------------------------------

namespace Whittle

namespace Position

/-
  A place of the text, counted from zero: at a character of
  a line, or behind the last one.
-/
def IsIn
    (p : Position)
    (ls : List Text) : Prop :=
  (0 ≤ p.line ∧ p.line < ls.length) ∧
    0 ≤ p.column ∧ p.column ≤ (rowOf ls p.line.toNat).length

instance
    (p : Position)
    (ls : List Text) : Decidable (p.IsIn ls) := by
  unfold IsIn
  infer_instance

/- The offset of a place. -/
def offsetIn
    (p : Position)
    (ls : List Text) : Nat :=
  Region.offsetAt ls p.line p.column

variable {ls : List Text} {p q : Position}

/- The offset of a place of the text. -/
theorem offsetIn_eq
    (hIn : p.IsIn ls) :
    p.offsetIn ls =
      Region.lineOffset ls p.line.toNat + p.column.toNat := by
  have hColumn := hIn.2
  unfold offsetIn Region.offsetAt
  change _ + min _ (rowOf ls p.line.toNat).length = _
  omega

/- A place of a line stands before the line after it starts. -/
theorem offsetIn_lt_lineOffset
    {line : Nat}
    (hLine : 0 ≤ p.line)
    (hBelow : p.line < line)
    (hSome : line < ls.length) :
    p.offsetIn ls < Region.lineOffset ls line := by
  have hLe : p.line.toNat + 1 ≤ line := by omega
  have hNext :=
    Region.lineOffset_succ ls (Nat.lt_trans hLe hSome)
  have hLater := Region.lineOffset_le ls hLe hSome
  unfold offsetIn Region.offsetAt
  omega

/- The offsets of places are in the order of the places. -/
theorem offsetIn_le
    (hp : 0 ≤ p.line)
    (hq : q.line < ls.length)
    (hLe : p.atMost q = true) :
    p.offsetIn ls ≤ q.offsetIn ls := by
  rcases atMost_iff.mp hLe with hLt | ⟨hEq, hColumn⟩
  · exact Region.offsetAt_le_of_lt hp hLt hq _ _
  · unfold offsetIn
    rw [hEq]
    exact Region.offsetAt_le_of_le ls _ hColumn

/- Different places of a text have different offsets. -/
theorem offsetIn_lt
    (hp : p.IsIn ls)
    (hq : q.IsIn ls)
    (hBefore : p.before q = true) :
    p.offsetIn ls < q.offsetIn ls := by
  have hpLine := hp.1
  have hqLine := hq.1
  rw [offsetIn_eq hq]
  rcases before_iff.mp hBefore with hLt | ⟨hEq, hColumn⟩
  · have hSome : q.line.toNat < ls.length := by omega
    have hStart :=
      offsetIn_lt_lineOffset hpLine.1 (by omega) hSome
    omega
  · have hpColumn := hp.2
    rw [offsetIn_eq hp, hEq]
    omega

theorem offsetIn_le_length
    (hIn : p.IsIn ls) :
    p.offsetIn ls ≤ (Text.ofLines ls).length := by
  have hLine : p.line.toNat < ls.length := by
    have := hIn.1
    omega
  have hColumn :
      p.column.toNat ≤ (rowOf ls p.line.toNat).length := by
    have := hIn.2
    omega
  have hLength :=
    congrArg List.length (Text.take_ofLines hLine hColumn)
  rw [List.length_take, Text.length_ofLines_concat,
    List.length_take, List.length_take] at hLength
  have hSame :
      Region.lineOffset (ls.take p.line.toNat) p.line.toNat =
        Region.lineOffset ls p.line.toNat := by
    simp [Region.lineOffset, List.take_take]
  rw [offsetIn_eq hIn]
  rw [Nat.min_eq_left (by omega : p.line.toNat ≤ ls.length),
    hSame] at hLength
  omega

end Position

end Whittle

------------------------------------------------------------
-- The Text Of A Region
------------------------------------------------------------

namespace Whittle

namespace Text

/- The characters between two offsets of a text. -/
theorem without_outside
    {start stop : Nat}
    (hLe : start ≤ stop)
    (t : Text) :
    t.without (fun o => !(start ≤ o && o < stop)) =
      (t.drop start).take (stop - start) := by
  have hBefore :
      ∀ o, 0 ≤ o → o < 0 + start →
        (!(decide (start ≤ o) && decide (o < stop))) = true := by
    intro o _ hLt
    simp
    omega
  have hWithin :
      ∀ o, 0 + start ≤ o → o < 0 + start + (stop - start) →
        (!(decide (start ≤ o) && decide (o < stop))) = false := by
    intro o hFrom hLt
    simp
    omega
  unfold without
  rw [withoutFrom_drop hBefore, withoutFrom_keep hWithin]
  have hBeyond :
      ∀ o, 0 + start + (stop - start) ≤ o →
        o < 0 + start + (stop - start) +
          ((t.drop start).drop (stop - start)).length →
        (!(decide (start ≤ o) && decide (o < stop))) = true := by
    intro o hFrom _
    simp
    omega
  rw [withoutFrom_drop hBeyond, List.drop_length]
  exact List.append_nil _

end Text

namespace Region

def start
    (r : Region) : Position :=
  ⟨r.beginLine, r.beginColumn⟩

/- Where a region stops; it does not hold that place. -/
def stop
    (r : Region) : Position :=
  ⟨r.endLine, r.endColumn⟩

/- The characters that a region covers. -/
def textIn
    (r : Region)
    (ls : List Text) : Text :=
  (Text.ofLines ls).without fun o => !r.covers ls o

variable {ls : List Text} {r : Region}

/- A region that is not inverted is located in the text. -/
theorem locate_eq
    (hLine : 0 ≤ r.beginLine)
    (hStop : r.endLine < ls.length)
    (hLe : r.start.atMost r.stop = true) :
    r.locate ls =
      .ok ⟨r.start.offsetIn ls, r.stop.offsetIn ls, r⟩ := by
  have hOffsets : r.start.offsetIn ls ≤ r.stop.offsetIn ls :=
    Position.offsetIn_le hLine hStop hLe
  rw [Position.atMost_iff] at hLe
  have hLines : r.beginLine ≤ r.endLine := by
    simp only [start, stop] at hLe
    omega
  unfold locate
  rw [offsetOf_eq hLine (by omega),
    offsetOf_eq (by omega) hStop]
  exact if_neg (by exact Nat.not_lt.mpr hOffsets)

/- The offsets that a region in the text covers. -/
theorem covers_eq
    (hLine : 0 ≤ r.beginLine)
    (hStop : r.endLine < ls.length)
    (hLe : r.start.atMost r.stop = true)
    (o : Nat) :
    r.covers ls o =
      (decide (r.start.offsetIn ls ≤ o) &&
        decide (o < r.stop.offsetIn ls)) := by
  unfold covers
  rw [locate_eq hLine hStop hLe]
  rfl

end Region

end Whittle

------------------------------------------------------------
-- Looking At One Gap
------------------------------------------------------------

namespace Whittle

variable {ls : List Text} {p b : Position}

/- The lines of a text can be looked at. -/
theorem lineAt_eq
    {line : Int}
    (hStart : 0 ≤ line)
    (hStop : line < ls.length) :
    lineAt ls line = .ok (rowOf ls line.toNat) := by
  have hLine : line.toNat < ls.length := by omega
  simp [lineAt, rowOf, hLine, Int.not_lt.mpr hStart]

/- How much of a line is left of its indentation at a column. -/
def unindented
    (row : Text)
    (column : Nat) : Nat :=
  ((row.take column).reverse.dropWhile isLayout).length

/- The indentation is looked for in the line only. -/
theorem layoutStart_eq
    {row : Text}
    {column : Nat}
    (hColumn : column ≤ row.length) :
    layoutStart row column = .ok (unindented row column) := by
  induction column with
  | zero => rfl
  | succ column ih =>
      have hLt : column < row.length := by omega
      have hTake :
          (row.take (column + 1)).reverse =
            row[column] :: (row.take column).reverse := by
        rw [List.take_succ_eq_append_getElem hLt,
          List.reverse_append]
        rfl
      unfold layoutStart unindented
      rw [List.getElem?_eq_getElem hLt, hTake,
        List.dropWhile_cons]
      dsimp only
      split
      · exact ih (by omega)
      · rw [List.length_cons, List.length_reverse,
          List.length_take, Nat.min_eq_left (by omega)]

/- Indentation does not add to what is left of it. -/
theorem unindented_le
    (row : Text)
    (column : Nat) :
    unindented row column ≤ column := by
  have hLe :=
    (List.dropWhile_sublist isLayout
      (l := (row.take column).reverse)).length_le
  rw [List.length_reverse, List.length_take] at hLe
  unfold unindented
  omega

/- Where the gap before a node ends, the node being in the text. -/
def gapStop
    (ls : List Text)
    (b : Position) : Position :=
  let column := unindented (rowOf ls b.line.toNat) b.column.toNat
  if column = 0 ∧ 0 < b.line then
    ⟨b.line - 1, (rowOf ls (b.line - 1).toNat).length⟩
  else
    ⟨b.line, column⟩

/- A gap before a node in the text is looked at within it. -/
theorem gapEnd_eq
    (hIn : b.IsIn ls) :
    gapEnd ls b = .ok (gapStop ls b) := by
  obtain ⟨⟨hLine, hLast⟩, hColumn, hWidth⟩ := hIn
  have hLayout :
      layoutStart (rowOf ls b.line.toNat) b.column.toNat =
        .ok (unindented (rowOf ls b.line.toNat)
          b.column.toNat) :=
    layoutStart_eq (by omega)
  unfold gapEnd gapStop
  rw [lineAt_eq hLine hLast]
  dsimp only
  rw [if_neg (by omega), hLayout]
  cases hLeft : unindented (rowOf ls b.line.toNat) b.column.toNat with
  | zero =>
      by_cases hFirst : 0 < b.line
      · have hAbove :
            lineAt ls (b.line - 1) =
              .ok (rowOf ls (b.line - 1).toNat) :=
          lineAt_eq (by omega) (by omega)
        simp [hFirst, hAbove]
      · rw [if_neg hFirst, if_neg (fun h => hFirst h.2)]
        rfl
  | succ column => simp

/- A gap ends in the text. -/
theorem gapStop_isIn
    (hIn : b.IsIn ls) :
    (gapStop ls b).IsIn ls := by
  obtain ⟨⟨hLine, hLast⟩, hColumn, hWidth⟩ := hIn
  have hLe :=
    unindented_le (rowOf ls b.line.toNat) b.column.toNat
  unfold gapStop
  dsimp only
  split
  · refine ⟨⟨?_, ?_⟩, ?_, ?_⟩ <;> dsimp only <;> omega
  · refine ⟨⟨?_, ?_⟩, ?_, ?_⟩ <;> dsimp only <;> omega

/- A gap ends before the node, on the line above at least. -/
theorem gapStop_bounds
    (hIn : b.IsIn ls) :
    b.line - 1 ≤ (gapStop ls b).line ∧
      (gapStop ls b).atMost b = true := by
  have hColumn := hIn.2
  have hLe :=
    unindented_le (rowOf ls b.line.toNat) b.column.toNat
  rw [Position.atMost_iff]
  unfold gapStop
  dsimp only
  split
  · constructor <;> dsimp only <;> omega
  · constructor <;> dsimp only <;> omega

/- The region of the gap between two places. -/
def gapRegion
    (ls : List Text)
    (p b : Position) : Region :=
  ⟨p.line + 1, (gapStop ls b).line, 0, (gapStop ls b).column⟩

/- A region that starts with a line covers lines and a rest. -/
theorem Region.textIn_eq
    {r : Region}
    (hColumn : r.beginColumn = 0)
    (hLine : 0 ≤ r.beginLine)
    (hLines : r.beginLine ≤ r.endLine)
    (hStop : r.stop.IsIn ls) :
    r.textIn ls =
      Text.ofLines
        ((ls.take r.stop.line.toNat).drop r.beginLine.toNat ++
          [(rowOf ls r.stop.line.toNat).take
            r.stop.column.toNat]) := by
  have hLe : r.start.atMost r.stop = true := by
    have hStart := hStop.2.1
    rw [Position.atMost_iff]
    simp only [start, stop] at *
    omega
  have hStartOffset :
      r.start.offsetIn ls = lineOffset ls r.beginLine.toNat := by
    simp [Position.offsetIn, offsetAt, start, hColumn]
  have hFirst : r.beginLine.toNat ≤ r.stop.line.toNat := by
    simp only [stop]
    omega
  have hLast : r.stop.line.toNat < ls.length := by
    have := hStop.1
    omega
  have hWithin :
      r.stop.column.toNat ≤ (rowOf ls r.stop.line.toNat).length := by
    have := hStop.2
    omega
  unfold textIn
  simp only [covers_eq hLine hStop.1.2 hLe]
  rw [Text.without_outside
      (Position.offsetIn_le hLine hStop.1.2 hLe),
    hStartOffset, Position.offsetIn_eq hStop]
  exact Text.take_drop_ofLines hFirst hLast hWithin

/- The text of a gap is what its region covers. -/
theorem Region.gapText_eq
    {r : Region}
    (hColumn : r.beginColumn = 0)
    (hLine : 0 ≤ r.beginLine)
    (hLines : r.beginLine ≤ r.endLine)
    (hStop : r.stop.IsIn ls) :
    gapText ls r.beginLine r.stop = .ok (r.textIn ls) := by
  have hEnd := hStop.1.2
  have hWidth := hStop.2.1
  unfold gapText
  rw [lineAt_eq hLine (by simp only [stop] at hEnd; omega),
    lineAt_eq hStop.1.1 hStop.1.2,
    textIn_eq hColumn hLine hLines hStop]
  simp [sliceUpTo, Int.not_lt.mpr hWidth]

/- What stands behind a place on its line. -/
def restOf
    (ls : List Text)
    (p : Position) : Text :=
  if p.line = -1 then
    []
  else
    sliceFrom (p.column + 1) (rowOf ls p.line.toNat)

/-
  The gap between two places may be removed: only layout
  stands behind the first one, and the hook accepts the text.
-/
def isRemovedGap
    (ls : List Text)
    (removable : Text → Bool)
    (p b : Position) : Bool :=
  (restOf ls p).all isLayout &&
    removable ((gapRegion ls p b).textIn ls)

/-
  What looking at a gap finds.  A gap without text counts as
  removed, though there is nothing to remove.
-/
def gapFound
    (ls : List Text)
    (removable : Text → Bool)
    (p b : Position) : GapBefore :=
  let r := gapRegion ls p b
  if isRemovedGap ls removable p b then
    ⟨if r.start.before r.stop then [r] else [], r.stop, true⟩
  else
    ⟨[], p, false⟩

/- A gap of at least one line is looked at within the text. -/
theorem gapBefore_eq
    (removable : Text → Bool)
    (hStart : -1 ≤ p.line)
    (hBelow : p.line + 1 < b.line)
    (hIn : b.IsIn ls) :
    gapBefore ls removable p b =
      .ok (gapFound ls removable p b) := by
  have hBounds := gapStop_bounds hIn
  have hRest :
      isLayoutAfter ls p = .ok ((restOf ls p).all isLayout) := by
    have hLast := hIn.1.2
    unfold isLayoutAfter restOf
    by_cases hRoot : p.line = -1
    · simp [hRoot]
    · rw [if_neg hRoot, if_neg hRoot,
        lineAt_eq (by omega) (by omega)]
  have hText :
      gapText ls (p.line + 1) (gapStop ls b) =
        .ok ((gapRegion ls p b).textIn ls) :=
    Region.gapText_eq (r := gapRegion ls p b) rfl
      (by simp only [gapRegion]; omega)
      (by simp only [gapRegion]; omega) (gapStop_isIn hIn)
  unfold gapBefore gapFound isRemovedGap
  rw [gapEnd_eq hIn]
  dsimp only
  rw [hRest, hText]
  cases (restOf ls p).all isLayout with
  | false => rfl
  | true =>
      cases hHook : removable ((gapRegion ls p b).textIn ls) with
      | false => simp [hHook]
      | true =>
          simp only [hHook, Bool.and_self, if_true]
          rfl

end Whittle
