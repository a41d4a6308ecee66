import Whittle.Text.Digit

/-
  Numbers as tokens.

  Key definitions include:
    * `tailLength?`
    * `endsNumber`
    * `numberLength?`

  A number is told by its length and by whether it ends with
  the imaginary unit.
-/

------------------------------------------------------------
-- Digits
------------------------------------------------------------

namespace Whittle

namespace Numeral

/-
  The length of more digits, with at most one underscore
  before each of them.  An underscore needs a digit.
-/
def tailLength?
    (isDigit : Char → Bool) : Text → Option Nat
  | [] => some 0
  | ['_'] => none
  | '_' :: c :: rest =>
      if isDigit c then
        (tailLength? isDigit rest).map (· + 2)
      else
        none
  | c :: rest =>
      if isDigit c then
        (tailLength? isDigit rest).map (· + 1)
      else
        some 0

/- The length of the digits after the mark of their base. -/
def basedLength?
    (isDigit : Char → Bool)
    (t : Text) : Option Nat :=
  match t with
  | '_' :: c :: rest =>
      if isDigit c then
        (tailLength? isDigit rest).map (· + 2)
      else
        none
  | c :: rest =>
      if isDigit c then
        (tailLength? isDigit rest).map (· + 1)
      else
        none
  | [] => none

/- A digit of base sixteen. -/
def isHexDigit
    (c : Char) : Bool :=
  c.isDigit || ('a' ≤ c && c ≤ 'f') || ('A' ≤ c && c ≤ 'F')

/- A digit of base eight. -/
def isOctalDigit
    (c : Char) : Bool :=
  '0' ≤ c && c ≤ '7'

/- A digit of base two. -/
def isBinaryDigit
    (c : Char) : Bool :=
  c = '0' || c = '1'

end Numeral

end Whittle

------------------------------------------------------------
-- Ends Of Numbers
------------------------------------------------------------

namespace Whittle

/- A character that may stand in a name. -/
def isNameChar
    (c : Char) : Bool :=
  c.isAlphanum || c = '_' || 0x80 ≤ c.toNat

namespace Numeral

/- A text starts with a word that no name character follows. -/
def startsWithWord
    (word : String)
    (t : Text) : Bool :=
  word.toList.isPrefixOf t &&
    !(t.drop word.length).head?.any isNameChar

/-
  A number may end before a text: before anything that is no
  name, or before a word that joins expressions.
-/
def endsNumber
    (t : Text) : Bool :=
  !t.head?.any isNameChar ||
    ["and", "else", "for", "or", "not"].any
      (startsWithWord · t) ||
    ["if", "in", "is"].any fun w => w.toList.isPrefixOf t

end Numeral

end Whittle

------------------------------------------------------------
-- Numbers
------------------------------------------------------------

namespace Whittle

namespace Numeral

/- The end of a number: perhaps an imaginary unit. -/
def finish?
    (length : Nat)
    (rest : Text) : Option (Nat × Bool) :=
  match rest with
  | c :: more =>
      if c = 'j' || c = 'J' then
        if endsNumber more then some (length + 1, true)
        else none
      else if endsNumber rest then
        some (length, false)
      else
        none
  | [] => some (length, false)

/- The digits of an exponent, `length` characters in. -/
def exponentDigits?
    (length : Nat)
    (rest : Text) : Option (Nat × Bool) :=
  match tailLength? Char.isDigit rest with
  | none => none
  | some n => finish? (length + n) (rest.drop n)

/- An exponent, if there is one, and the end of a number. -/
def exponent?
    (length : Nat)
    (rest : Text) : Option (Nat × Bool) :=
  match rest with
  | c :: sign :: more =>
      if c = 'e' || c = 'E' then
        if sign = '+' || sign = '-' then
          if more.head?.any Char.isDigit then
            exponentDigits? (length + 2) more
          else
            none
        else if sign.isDigit then
          exponentDigits? (length + 1) (sign :: more)
        else if endsNumber rest then
          some (length, false)
        else
          none
      else
        finish? length rest
  | _ => finish? length rest

/- What may follow the point of a number. -/
def fraction?
    (length : Nat)
    (rest : Text) : Option (Nat × Bool) :=
  if rest.head?.any Char.isDigit then
    match tailLength? Char.isDigit rest with
    | none => none
    | some n => exponent? (length + n) (rest.drop n)
  else
    exponent? length rest

/- The digits of a number that has no point or exponent. -/
def isReadable
    (digits : Text) : Bool :=
  let values := digits.filter (· ≠ '_')
  if values.head? = some '0' then
    values.all (· = '0')
  else
    values.length ≤ maxDigits

/- A number in decimal. -/
def decimal?
    (t : Text) : Option (Nat × Bool) :=
  match tailLength? Char.isDigit t with
  | none => none
  | some n =>
      let rest := t.drop n
      match rest with
      | '.' :: more => fraction? (n + 1) more
      | _ =>
          match exponent? n rest with
          | none => none
          | some (length, isImaginary) =>
              if length = n && !isReadable (t.take n) then
                none
              else
                some (length, isImaginary)

/- A number in another base than ten. -/
def based?
    (isDigit : Char → Bool)
    (digits : Text) : Option (Nat × Bool) :=
  match basedLength? isDigit digits with
  | none => none
  | some n =>
      let rest := digits.drop n
      if rest.head?.any Char.isDigit || !endsNumber rest then
        none
      else
        some (n + 2, false)

/-
  The length of the number at the start of a text, and
  whether it is imaginary.
-/
def numberLength?
    (t : Text) : Option (Nat × Bool) :=
  match t with
  | '.' :: rest => fraction? 1 rest
  | '0' :: mark :: digits =>
      if mark = 'x' || mark = 'X' then
        based? isHexDigit digits
      else if mark = 'o' || mark = 'O' then
        based? isOctalDigit digits
      else if mark = 'b' || mark = 'B' then
        based? isBinaryDigit digits
      else
        decimal? t
  | _ => decimal? t

end Numeral

end Whittle
