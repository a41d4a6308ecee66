import Whittle.Text.Basic

/-
  White space.

  Key definitions include:
    * `isBlank`
    * `isLayout`
    * `Text.strip`
    * `Text.rows`

  Key theorems include:
    * `isBlank_of_isWhitespace`
-/

------------------------------------------------------------
-- Classes Of White Space
------------------------------------------------------------

namespace Whittle

/-
  A character that Unicode counts as white space, with the
  four information separators U+001C to U+001F.
-/
def isBlank
    (c : Char) : Bool :=
  let n := c.toNat
  (0x09 ≤ n && n ≤ 0x0D) ||
    (0x1C ≤ n && n ≤ 0x20) ||
    n = 0x85 || n = 0xA0 || n = 0x1680 ||
    (0x2000 ≤ n && n ≤ 0x200A) ||
    n = 0x2028 || n = 0x2029 ||
    n = 0x202F || n = 0x205F || n = 0x3000

/- White space of plain ASCII text. -/
def isAsciiBlank
    (c : Char) : Bool :=
  c = ' ' || (0x09 ≤ c.toNat && c.toNat ≤ 0x0D)

/- A character that only moves code along its line. -/
def isLayout
    (c : Char) : Bool :=
  c = ' ' || c = '\t'

/- The blanks of core's smaller class are blanks. -/
theorem isBlank_of_isWhitespace
    (c : Char)
    (hc : c.isWhitespace = true) :
    isBlank c = true := by
  simp only [Char.isWhitespace, Bool.or_eq_true,
    decide_eq_true_eq] at hc
  rcases hc with ((rfl | rfl) | rfl) | rfl <;> decide

end Whittle

------------------------------------------------------------
-- Stripping And Rows
------------------------------------------------------------

namespace Whittle

namespace Text

/- A text without the white space at its ends. -/
def strip
    (t : Text) : Text :=
  trimWhere isBlank t

/- A character that ends a row of printed output. -/
def isRowEnd
    (c : Char) : Bool :=
  let n := c.toNat
  (0x0A ≤ n && n ≤ 0x0D) ||
    (0x1C ≤ n && n ≤ 0x1E) ||
    n = 0x85 || n = 0x2028 || n = 0x2029

/-
  The rows of printed output, `row` being the reversed start
  of the row under way.  A carriage return and the newline
  after it end one row together, and no row follows the last
  end.
-/
def rowsFrom
    (row : Text) : Text → List Text
  | [] => if row.isEmpty then [] else [row.reverse]
  | '\r' :: '\n' :: rest => row.reverse :: rowsFrom [] rest
  | c :: rest =>
      if isRowEnd c then
        row.reverse :: rowsFrom [] rest
      else
        rowsFrom (c :: row) rest

/- The rows of printed output. -/
def rows
    (t : Text) : List Text :=
  rowsFrom [] t

end Text

end Whittle
