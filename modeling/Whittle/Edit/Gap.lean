import Whittle.Edit.Region
import Whittle.Text.Blank
import Whittle.Tree.Basic

/-
  Trimming the gaps between nodes, such as blank lines and
  block comments.

  Key definitions include:
    * `GapError`
    * `gapEnd`
    * `gapText`
    * `Tree.gapRegions`
    * `Text.withoutBlankLines`

  A gap reaches from the start of the line after the text
  before a node to the start of the node, or to the
  indentation on its left.  Positions count from zero here.
-/

------------------------------------------------------------
-- Reaching Into Lines
------------------------------------------------------------

namespace Whittle

/- Why gaps cannot be looked at. -/
inductive GapError where
| outside
deriving DecidableEq, Repr

/- The line at an index. -/
def lineAt
    (ls : List Text)
    (line : Int) : Except GapError Text :=
  if line < 0 then
    .error .outside
  else
    match ls[line.toNat]? with
    | none => .error .outside
    | some l => .ok l

end Whittle

------------------------------------------------------------
-- One Gap
------------------------------------------------------------

namespace Whittle

/-
  The number of characters on the left of a column that stay
  after the layout next to the column is taken away.
-/
def layoutStart
    (row : Text) : (column : Nat) → Except GapError Nat
  | 0 => .ok 0
  | column + 1 =>
      match row[column]? with
      | none => .error .outside
      | some c =>
          if isLayout c then
            layoutStart row column
          else
            .ok (column + 1)

/-
  Where the gap before a node ends.  The indentation on the
  left of the node is kept: if nothing else stands there, the
  gap ends with the line before.
-/
def gapEnd
    (ls : List Text)
    (begin : Position) : Except GapError Position :=
  match lineAt ls begin.line with
  | .error e => .error e
  | .ok line =>
      if begin.column < 0 then
        .ok begin
      else
        match layoutStart line begin.column.toNat with
        | .error e => .error e
        | .ok 0 =>
            if 0 < begin.line then
              match lineAt ls (begin.line - 1) with
              | .error e => .error e
              | .ok above =>
                  .ok ⟨begin.line - 1, above.length⟩
            else
              .ok ⟨begin.line, 0⟩
        | .ok column => .ok ⟨begin.line, column⟩

/- The text from the start of a line to a position. -/
def gapText
    (ls : List Text)
    (startLine : Int)
    (stop : Position) : Except GapError Text :=
  match lineAt ls startLine, lineAt ls stop.line with
  | .ok _, .ok row =>
      let first := startLine.toNat
      let last := stop.line.toNat
      .ok
        (Text.ofLines
          (((ls.take last).drop first) ++
            [sliceUpTo stop.column row]))
  | _, _ => .error .outside

/-
  Only layout stands after a column of a line.  Before the
  first line there is nothing at all.
-/
def isLayoutAfter
    (ls : List Text)
    (stop : Position) : Except GapError Bool :=
  if stop.line = -1 then
    .ok true
  else
    match lineAt ls stop.line with
    | .error e => .error e
    | .ok row =>
        .ok ((sliceFrom (stop.column + 1) row).all isLayout)

end Whittle

------------------------------------------------------------
-- All Gaps
------------------------------------------------------------

namespace Whittle

/- What is known of a node after the gap before it. -/
structure GapBefore where
  regions : List Region
  stop : Position
  trimmed : Bool
deriving Repr

/-
  The gap between the end of the text before a node and the
  node, if there is one that may be removed.
-/
def gapBefore
    (ls : List Text)
    (removable : Text → Bool)
    (previous begin : Position) : Except GapError GapBefore :=
  match gapEnd ls begin with
  | .error e => .error e
  | .ok stop =>
      let startLine := previous.line + 1
      match isLayoutAfter ls previous with
      | .error e => .error e
      | .ok false => .ok ⟨[], previous, false⟩
      | .ok true =>
          match gapText ls startLine stop with
          | .error e => .error e
          | .ok text =>
              if removable text then
                let region : Region :=
                  ⟨startLine, stop.line, 0, stop.column⟩
                let proper :=
                  (⟨startLine, 0⟩ : Position).before stop
                .ok ⟨if proper then [region] else [], stop, true⟩
              else
                .ok ⟨[], previous, false⟩

/-
  The gaps of the children of a node, each looked at from the
  end of the text before it.  `fresh` says that no text of
  the parent stands between the last gap and the first child.
-/
def childGaps
    (look : Nat → Position → Bool → Except GapError (List Region))
    (endOf : Nat → Position) :
    List Nat → Position → (fresh : Bool) →
      Except GapError (List Region)
  | [], _, _ => .ok []
  | child :: more, previous, fresh =>
      match look child previous fresh with
      | .error e => .error e
      | .ok regions =>
          match childGaps look endOf more
              (previous.greatest (endOf child)) false with
          | .error e => .error e
          | .ok others => .ok (regions ++ others)

namespace Tree

/- Where a node begins, counted from zero. -/
def beginOf
    (t : Tree)
    (i : Nat) : Position :=
  let p := (t.span i).first
  ⟨p.line - 1, p.column - 1⟩

/- Where a node ends, counted from zero. -/
def endOf
    (t : Tree)
    (i : Nat) : Position :=
  let p := (t.span i).last
  ⟨p.line - 1, p.column - 1⟩

/-
  The gaps of a subtree that follows text ending at
  `previous`.  `fresh` says that a gap right before has just
  been trimmed.  `fuel` bounds the depth.
-/
def gapsFrom
    (t : Tree)
    (ls : List Text)
    (validate : Bool)
    (removable : Text → Bool) :
    (fuel : Nat) → Nat → Position → (fresh : Bool) →
      Except GapError (List Region)
  | 0, _, _, _ => .ok []
  | fuel + 1, i, previous, fresh =>
      let begin := t.beginOf i
      let looks :=
        !fresh && previous.line < begin.line - 1 &&
          (!validate || (t.span i).isProper)
      let before :=
        if looks then
          gapBefore ls removable previous begin
        else
          .ok ⟨[], previous, false⟩
      match before with
      | .error e => .error e
      | .ok gap =>
          match childGaps
              (gapsFrom t ls validate removable fuel)
              t.endOf (t.children i)
              (gap.stop.greatest begin)
              (gap.trimmed || fresh) with
          | .error e => .error e
          | .ok others => .ok (gap.regions ++ others)

/-
  The regions that trim the gaps of a tree over the lines it
  was read from.  `removable` may veto a gap by its text.
-/
def gapRegions
    (t : Tree)
    (ls : List Text)
    (validate : Bool)
    (removable : Text → Bool) :
    Except GapError (List Region) :=
  t.gapsFrom ls validate removable t.size 0 ⟨-1, 0⟩ false

end Tree

end Whittle

------------------------------------------------------------
-- Blank Lines
------------------------------------------------------------

namespace Whittle

namespace Text

/-
  A text without the lines that hold only layout.  Every line
  that stays ends with a newline.
-/
def withoutBlankLines
    (t : Text) : Text :=
  (t.lines.filter fun l => !l.all isLayout).flatMap
    fun l => l ++ ['\n']

end Text

end Whittle
