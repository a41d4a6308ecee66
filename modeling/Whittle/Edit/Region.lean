import Whittle.Text.Basic

/-
  Regions of a text and their removal.

  Key definitions include:
    * `Region`
    * `Region.isAtMost`
    * `RegionError`
    * `Region.locate`
    * `eraseRegions`

  A region runs from one line and column up to, and without,
  another one; lines and columns count from zero, and columns
  are clamped to their line.
-/

------------------------------------------------------------
-- Regions
------------------------------------------------------------

namespace Whittle

/- A half-open region of a text to erase. -/
structure Region where
  beginLine : Int
  endLine : Int
  beginColumn : Int
  endColumn : Int
deriving DecidableEq, Repr, Inhabited

namespace Region

/- A region as messages show it. -/
def describe
    (r : Region) : String :=
  "DeleteOperation(begin_line=" ++ toString r.beginLine ++
    ", end_line=" ++ toString r.endLine ++
    ", begin_column=" ++ toString r.beginColumn ++
    ", end_column=" ++ toString r.endColumn ++ ")"

/-
  The order of regions: first by both lines, then by both
  columns.
-/
def isAtMost
    (r s : Region) : Bool :=
  if r.beginLine ≠ s.beginLine then
    r.beginLine ≤ s.beginLine
  else if r.endLine ≠ s.endLine then
    r.endLine ≤ s.endLine
  else if r.beginColumn ≠ s.beginColumn then
    r.beginColumn ≤ s.beginColumn
  else
    r.endColumn ≤ s.endColumn

end Region

/- Why regions cannot be erased. -/
inductive RegionError where
| outside (line : Int)
| inverted (region : Region)
| overlapping (previous next : Region)
deriving DecidableEq, Repr

namespace RegionError

/- The wording of a refusal. -/
def message : RegionError → String
  | outside line =>
      "Line " ++ toString line ++
        " is outside of the document."
  | inverted region =>
      "Inverted region: " ++ region.describe
  | overlapping previous next =>
      "Overlapping regions: " ++ previous.describe ++
        " and " ++ next.describe

end RegionError

end Whittle

------------------------------------------------------------
-- Offsets
------------------------------------------------------------

namespace Whittle

namespace Region

/- A region with the offsets of its characters. -/
structure Located where
  start : Nat
  stop : Nat
  region : Region
deriving DecidableEq, Repr

/- How many characters stand before a line of a text. -/
def lineOffset
    (ls : List Text)
    (line : Nat) : Nat :=
  total ((ls.take line).map fun l => l.length + 1)

/- The offset of a line and a column, clamped to the line. -/
def offsetOf
    (ls : List Text)
    (line column : Int) : Except RegionError Nat :=
  if line < 0 then
    .error (.outside line)
  else
    match ls[line.toNat]? with
    | none => .error (.outside line)
    | some l =>
        .ok (lineOffset ls line.toNat +
          min column.toNat l.length)

/- The offsets of a region that is not inverted. -/
def locate
    (ls : List Text)
    (r : Region) : Except RegionError Located := do
  let start ← offsetOf ls r.beginLine r.beginColumn
  let stop ← offsetOf ls r.endLine r.endColumn
  if stop < start then
    .error (.inverted r)
  else
    .ok ⟨start, stop, r⟩

end Region

end Whittle

------------------------------------------------------------
-- Erasing
------------------------------------------------------------

namespace Whittle

/-
  Erase located regions, in order of their starts, from the
  rest of a text whose first character has offset `pos`.
  `previous` is the region before the first one.
-/
def eraseFrom
    (pos : Nat)
    (previous : Region)
    (rest : Text) :
    List Region.Located → Except RegionError Text
  | [] => .ok rest
  | r :: more =>
      if r.start < pos then
        .error (.overlapping previous r.region)
      else do
        let tail ←
          eraseFrom r.stop r.region
            (rest.drop (r.stop - pos)) more
        .ok (rest.take (r.start - pos) ++ tail)

/-
  The text without the regions, which must lie in the text
  and not overlap.  Empty regions erase nothing and overlap
  with none.
-/
def eraseRegions
    (t : Text)
    (regions : List Region) : Except RegionError Text := do
  let ls := t.lines
  let located ← regions.mapM (Region.locate ls)
  let proper := located.filter fun r => r.start < r.stop
  let sorted := proper.mergeSort fun a b => a.start ≤ b.start
  eraseFrom 0 default t sorted

end Whittle
