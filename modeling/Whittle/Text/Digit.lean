import Whittle.Text.Blank

/-
  Decimal digits of every script (Unicode 14) and the numbers
  that are written with them.

  Key definitions include:
    * `zeroDigits`
    * `digitValue?`
    * `Text.readNatural?`
    * `Text.readInteger?`
-/

------------------------------------------------------------
-- Decimal Digits
------------------------------------------------------------

namespace Whittle

/-
  The zeros of the scripts.  The nine code points after a
  zero are the digits one to nine of the same script.
-/
def zeroDigits : List Nat :=
  [
    0x30, 0x660, 0x6F0, 0x7C0, 0x966, 0x9E6, 0xA66, 0xAE6, 0xB66, 0xBE6,
    0xC66, 0xCE6, 0xD66, 0xDE6, 0xE50, 0xED0, 0xF20, 0x1040, 0x1090,
    0x17E0, 0x1810, 0x1946, 0x19D0, 0x1A80, 0x1A90, 0x1B50, 0x1BB0,
    0x1C40, 0x1C50, 0xA620, 0xA8D0, 0xA900, 0xA9D0, 0xA9F0, 0xAA50,
    0xABF0, 0xFF10, 0x104A0, 0x10D30, 0x11066, 0x110F0, 0x11136, 0x111D0,
    0x112F0, 0x11450, 0x114D0, 0x11650, 0x116C0, 0x11730, 0x118E0,
    0x11950, 0x11C50, 0x11D50, 0x11DA0, 0x16A60, 0x16AC0, 0x16B50,
    0x1D7CE, 0x1D7D8, 0x1D7E2, 0x1D7EC, 0x1D7F6, 0x1E140, 0x1E2F0,
    0x1E950, 0x1FBF0
  ]

/- The value of a decimal digit of any script. -/
def digitValue?
    (c : Char) : Option Nat :=
  (zeroDigits.find? fun z =>
      z ≤ c.toNat && c.toNat ≤ z + 9).map
    fun z => c.toNat - z

/- A decimal digit of any script. -/
def isDecimal
    (c : Char) : Bool :=
  (digitValue? c).isSome

end Whittle

------------------------------------------------------------
-- Numbers
------------------------------------------------------------

namespace Whittle

/- The greatest number of digits that is still read. -/
def maxDigits : Nat := 4300

namespace Text

/- The number that a list of digit values writes. -/
def valueOfDigits
    (ds : List Nat) : Nat :=
  ds.foldl (fun n d => 10 * n + d) 0

/- The values of a text that holds digits only. -/
def digits?
    (t : Text) : Option (List Nat) :=
  if t.isEmpty then
    none
  else
    t.mapM digitValue?

/-
  Digits with at most one underscore between two of them.
  `afterDigit` says that an underscore may come next.
-/
def groupedDigits?
    (afterDigit : Bool) : Text → Option (List Nat)
  | [] => if afterDigit then some [] else none
  | c :: rest =>
      if c = '_' then
        if afterDigit then
          groupedDigits? false rest
        else
          none
      else
        match digitValue? c with
        | none => none
        | some d =>
            (groupedDigits? true rest).map (d :: ·)

/- A natural number with grouped digits, not too long. -/
def readNatural?
    (t : Text) : Option Nat :=
  match groupedDigits? false t with
  | none => none
  | some ds =>
      if ds.length ≤ maxDigits then
        some (valueOfDigits ds)
      else
        none

/-
  An integer in decimal: white space around it, an optional
  sign, grouped digits.  In a text of ASCII characters only
  the ASCII blanks count as white space.
-/
def readInteger?
    (t : Text) : Option Int :=
  let isEdge :=
    if t.all fun c => c.toNat < 0x80 then
      isAsciiBlank
    else
      isBlank
  match trimWhere isEdge t with
  | '+' :: rest => (readNatural? rest).map Int.ofNat
  | '-' :: rest =>
      (readNatural? rest).map fun n => -Int.ofNat n
  | rest => (readNatural? rest).map Int.ofNat

end Text

end Whittle
