/-
  Places in a text.

  Key definitions include:
    * `Position`
    * `Position.before`
    * `Span`
    * `Span.isProper`

  Lines and columns are integers, so that any span a parser
  states can be held; a text has lines and columns from one
  on, and the end column of a span is its last one.
-/

------------------------------------------------------------
-- Positions
------------------------------------------------------------

namespace Whittle

/- A line and a column. -/
structure Position where
  line : Int
  column : Int
deriving DecidableEq, Repr, Inhabited

namespace Position

/- Strict lexicographic order. -/
def before
    (p q : Position) : Bool :=
  p.line < q.line || (p.line = q.line && p.column < q.column)

/- Lexicographic order. -/
def atMost
    (p q : Position) : Bool :=
  !q.before p

/- The lesser of two positions, the first one of equals. -/
def least
    (p q : Position) : Position :=
  if q.before p then q else p

/- The greater of two positions, the first one of equals. -/
def greatest
    (p q : Position) : Position :=
  if p.before q then q else p

end Position

end Whittle

------------------------------------------------------------
-- Spans
------------------------------------------------------------

namespace Whittle

/- The first and the last position of a piece of text. -/
structure Span where
  first : Position
  last : Position
deriving DecidableEq, Repr, Inhabited

namespace Span

/- A span given by its four numbers. -/
def ofNumbers
    (beginLine beginColumn endLine endColumn : Int) : Span :=
  ⟨⟨beginLine, beginColumn⟩, ⟨endLine, endColumn⟩⟩

/- The span begins strictly before it ends. -/
def isProper
    (s : Span) : Bool :=
  s.first.before s.last

/- The least span over both. -/
def hull
    (s t : Span) : Span :=
  ⟨s.first.least t.first, s.last.greatest t.last⟩

end Span

end Whittle
