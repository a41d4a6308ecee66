import Whittle.Text.Charset

/-
  Output that is read row by row up to a marker.

  Key definitions include:
    * `marker`
    * `readUntilMarker`
    * `Stream`
    * `Stream.push`
    * `Stream.readReply`
-/

------------------------------------------------------------
-- Markers
------------------------------------------------------------

namespace Whittle

/- What comes before each reply of a server. -/
def marker : Text :=
  "## FORKSERVER -> SCM ##".toList

/- A row without the line ends behind it. -/
def withoutLineEnd
    (row : Text) : Text :=
  (row.reverse.dropWhile fun c => c = '\n' || c = '\r').reverse

/-
  Read rows up to one with a marker: the reply after the
  marker, the rows before it, and the rows that are left.
  Without a marker there is no reply.
-/
def readUntilMarker :
    List Text → Option Text × List Text × List Text
  | [] => (none, [], [])
  | row :: rest =>
      let row := withoutLineEnd row
      match splitAtFirst? marker row with
      | some (before, reply) =>
          let contents := if before.isEmpty then [] else [before]
          (some reply, contents, rest)
      | none =>
          let (reply, contents, left) := readUntilMarker rest
          (reply, row :: contents, left)

/- The rows of a text, each with the newline that ends it. -/
def rowsWithEnds : Text → List Text
  | [] => []
  | c :: rest =>
      if c = '\n' then
        [c] :: rowsWithEnds rest
      else
        match rowsWithEnds rest with
        | [] => [[c]]
        | row :: more => (c :: row) :: more

end Whittle

------------------------------------------------------------
-- Streams
------------------------------------------------------------

namespace Whittle

/-
  What has been written to a stream and not been read: whole
  rows, and the start of one that has not ended.
-/
structure Stream where
  rows : List Text
  tail : Bytes
deriving DecidableEq, Repr, Inhabited

namespace Stream

/- A stream that nothing has been written to. -/
def empty : Stream :=
  ⟨[], []⟩

/-
  Split bytes at the ends of rows: a newline, a carriage
  return, or both.  `row` is the reversed start of the row
  under way.  A carriage return at the end may still get its
  newline, so its row has not ended.
-/
def split
    (row : Bytes) : Bytes → List Text × Bytes
  | [] => ([], row.reverse)
  | [13] => ([], (13 :: row).reverse)
  | 13 :: 10 :: rest =>
      let (rows, tail) := split [] rest
      (decodeLenient row.reverse :: rows, tail)
  | b :: rest =>
      if b = 10 || b = 13 then
        let (rows, tail) := split [] rest
        (decodeLenient row.reverse :: rows, tail)
      else
        split (b :: row) rest

/- Write to a stream. -/
def push
    (s : Stream)
    (written : Bytes) : Stream :=
  let (rows, tail) := split [] (s.tail ++ written)
  ⟨s.rows ++ rows, tail⟩

/- All rows of a stream that nothing more is written to. -/
def allRows
    (s : Stream) : List Text :=
  if s.tail.isEmpty then
    s.rows
  else
    s.rows ++ [withoutLineEnd (decodeLenient s.tail)]

/-
  Read up to the next marker: the reply, the rows before it,
  and the stream after it.  A stream without a marker is read
  to its end.
-/
def readReply
    (s : Stream) : Option Text × List Text × Stream :=
  match readUntilMarker s.rows with
  | (some reply, contents, left) =>
      (some reply, contents, { s with rows := left })
  | (none, _, _) =>
      let (reply, contents, left) := readUntilMarker s.allRows
      (reply, contents, ⟨left, []⟩)

end Stream

end Whittle
