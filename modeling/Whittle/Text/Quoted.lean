import Whittle.Text.Basic
import Whittle.Text.Printable

/-
  Quoted texts, as messages show them.

  Key definitions include:
    * `hexDigits`
    * `Text.quoteMark`
    * `Text.quoted`

  A text is put between single quotes, or between double
  quotes if it has single ones and no double ones.
-/

------------------------------------------------------------
-- Hexadecimal
------------------------------------------------------------

namespace Whittle

/- The digit of a number below sixteen. -/
def hexDigit
    (n : Nat) : Char :=
  if n < 10 then
    Char.ofNat (0x30 + n)
  else
    Char.ofNat (0x61 + (n - 10))

/- The last `width` hexadecimal digits of a number. -/
def hexDigits : (width : Nat) → Nat → List Char
  | 0, _ => []
  | width + 1, n =>
      hexDigits width (n / 16) ++ [hexDigit (n % 16)]

/- The value of a hexadecimal digit. -/
def hexValue?
    (c : Char) : Option Nat :=
  let n := c.toNat
  if 0x30 ≤ n && n ≤ 0x39 then
    some (n - 0x30)
  else if 0x61 ≤ n && n ≤ 0x66 then
    some (n - 0x61 + 10)
  else if 0x41 ≤ n && n ≤ 0x46 then
    some (n - 0x41 + 10)
  else
    none

end Whittle

------------------------------------------------------------
-- Quoting
------------------------------------------------------------

namespace Whittle

namespace Text

/- The quote that a text is put between. -/
def quoteMark
    (t : Text) : Char :=
  if t.contains '\'' && !t.contains '"' then
    '"'
  else
    '\''

/- One character between the given quotes. -/
def quotedChar
    (mark c : Char) : Text :=
  if c = mark || c = '\\' then
    ['\\', c]
  else if c = '\n' then
    ['\\', 'n']
  else if c = '\r' then
    ['\\', 'r']
  else if c = '\t' then
    ['\\', 't']
  else if isPrintable c then
    [c]
  else if c.toNat < 0x100 then
    '\\' :: 'x' :: hexDigits 2 c.toNat
  else if c.toNat < 0x10000 then
    '\\' :: 'u' :: hexDigits 4 c.toNat
  else
    '\\' :: 'U' :: hexDigits 8 c.toNat

/- A text between quotes, with escapes. -/
def quoted
    (t : Text) : Text :=
  let mark := quoteMark t
  mark :: t.flatMap (quotedChar mark) ++ [mark]

end Text

/- A string between quotes, with escapes. -/
def quote
    (s : String) : String :=
  String.ofList (Text.quoted s.toList)

end Whittle
