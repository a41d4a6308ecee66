import Whittle.Text.Charset
import Whittle.Text.Quoted

/-
  Values of settings and of logged events.

  Key definitions include:
    * `Decimal`
    * `Amount`
    * `Value`
    * `Value.isTrue`
    * `Value.quoted`
    * `Value.display`

  A setting keeps the kind of value that it was given, so a
  wrong kind is noticed where the setting is used.
-/

------------------------------------------------------------
-- Decimal Fractions
------------------------------------------------------------

namespace Whittle

/- The number `mantissa / 10 ^ places`. -/
structure Decimal where
  mantissa : Int
  places : Nat
deriving DecidableEq, Repr, Inhabited

namespace Decimal

/- An integer as a decimal fraction. -/
def ofInt
    (n : Int) : Decimal :=
  ⟨n, 0⟩

/- The numerators of two fractions over one denominator. -/
def aligned
    (d e : Decimal) : Int × Int :=
  (d.mantissa * Int.pow 10 e.places,
    e.mantissa * Int.pow 10 d.places)

/- The first fraction is less than the second one. -/
def isBelow
    (d e : Decimal) : Bool :=
  (aligned d e).1 < (aligned d e).2

/- The two fractions are the same number. -/
def isSame
    (d e : Decimal) : Bool :=
  (aligned d e).1 = (aligned d e).2

/- Leave out final zeros among the first `places` places. -/
def reduced
    (mantissa : Nat) : (places : Nat) → Nat × Nat
  | 0 => (mantissa, 0)
  | places + 1 =>
      if mantissa % 10 = 0 then
        reduced (mantissa / 10) places
      else
        (mantissa, places + 1)

/-
  The digits of a fraction with a point and at least one
  place after it.
-/
def positional
    (mantissa places : Nat) : Text :=
  let digits := (toString mantissa).toList
  let padded :=
    List.replicate (places + 1 - digits.length) '0' ++ digits
  let whole := padded.take (padded.length - places)
  let part := padded.drop (padded.length - places)
  whole ++ '.' :: (if part.isEmpty then ['0'] else part)

/-
  The digits of a fraction with one digit before the point
  and a power of ten of at least two digits.
-/
def scientific
    (mantissa places : Nat) : Text :=
  let digits := (toString mantissa).toList
  let power : Int := (digits.length : Int) - 1 - places
  let figures :=
    (digits.reverse.dropWhile (· = '0')).reverse
  let exponent := (toString power.natAbs).toList
  figures.take 1 ++
    (if figures.length ≤ 1 then
      []
    else
      '.' :: figures.drop 1) ++
    ['e', if power < 0 then '-' else '+'] ++
    List.replicate (2 - exponent.length) '0' ++ exponent

/-
  The text of a fraction: positional from `0.0001` on and
  below `10 ^ 16`, otherwise with a power of ten.
-/
def text
    (d : Decimal) : Text :=
  let (mantissa, places) := reduced d.mantissa.natAbs d.places
  let width := (toString mantissa).length
  let isPositional :=
    mantissa = 0 || (places < width + 4 && width ≤ places + 16)
  (if d.mantissa < 0 then ['-'] else []) ++
    (if isPositional then
      positional mantissa places
    else
      scientific mantissa places)

end Decimal

end Whittle

------------------------------------------------------------
-- Amounts
------------------------------------------------------------

namespace Whittle

/-
  What numbers are compared by.  An undefined amount is
  neither below nor the same as any, nor is any below it.
-/
inductive Amount where
| finite (d : Decimal)
| infinite (isNegative : Bool)
| undefined
deriving DecidableEq, Repr, Inhabited

namespace Amount

def ofInt
    (n : Int) : Amount :=
  finite (.ofInt n)

def isBelow : Amount → Amount → Bool
  | finite d, finite e => d.isBelow e
  | finite _, infinite isNegative => !isNegative
  | infinite isNegative, finite _ => isNegative
  | infinite isNegative, infinite isNegative' =>
      isNegative && !isNegative'
  | _, _ => false

def isSame : Amount → Amount → Bool
  | finite d, finite e => d.isSame e
  | infinite isNegative, infinite isNegative' =>
      isNegative = isNegative'
  | _, _ => false

def isAtMost
    (a b : Amount) : Bool :=
  a.isBelow b || a.isSame b

end Amount

end Whittle

------------------------------------------------------------
-- Values
------------------------------------------------------------

namespace Whittle

/-
  A value of a kind that no setting asks for, such as a date
  or a set.
    * `shown`, `quoted` : as it stands in texts and messages.
    * `isTrue` : it counts as true.
    * `isKey` : it may be a key or be looked up as one.
    * `hasItems` : one can go over its items, none of which
      is a mapping.
-/
structure OtherValue where
  shown : String
  quoted : String
  isTrue : Bool
  isKey : Bool
  hasItems : Bool
deriving DecidableEq, Repr, Inhabited

/- A value of any kind. -/
inductive Value where
| null
| flag (isSet : Bool)
| number (n : Int)
| decimal (d : Decimal)
| infinite (isNegative : Bool)
| undefined
| text (s : String)
| bytes (bs : Bytes)
| sequence (items : List Value)
| mapping (entries : List (Value × Value))
| other (v : OtherValue)
deriving Repr, Inhabited

namespace Value

/- The value counts as true. -/
def isTrue : Value → Bool
  | null => false
  | flag isSet => isSet
  | number n => n ≠ 0
  | decimal d => d.mantissa ≠ 0
  | infinite _ => true
  | undefined => true
  | text s => !s.isEmpty
  | bytes bs => !bs.isEmpty
  | sequence items => !items.isEmpty
  | mapping entries => !entries.isEmpty
  | other v => v.isTrue

/- The number that a value counts as. -/
def amount? : Value → Option Amount
  | flag isSet => some (.ofInt (if isSet then 1 else 0))
  | number n => some (.ofInt n)
  | decimal d => some (.finite d)
  | infinite isNegative => some (.infinite isNegative)
  | undefined => some .undefined
  | _ => none

def isText
    (v : Value)
    (s : String) : Bool :=
  match v with
  | text t => t = s
  | _ => false

/- The value may be a key or be looked up as one. -/
def isScalar : Value → Bool
  | sequence _ => false
  | mapping _ => false
  | other v => v.isKey
  | _ => true

/- The value of the last entry with a text as its key. -/
def entry?
    (key : String)
    (entries : List (Value × Value)) : Option Value :=
  (entries.reverse.find? fun e => e.1.isText key).map (·.2)

end Value

end Whittle

------------------------------------------------------------
-- Texts Of Values
------------------------------------------------------------

namespace Whittle

namespace Value

/- Pieces with a comma and a space between them. -/
def joined
    (pieces : List Text) : Text :=
  List.intercalate [',', ' '] pieces

/- Bytes between quotes.  Those that are no ASCII are escaped. -/
def quotedBytes
    (bs : Bytes) : Text :=
  let t := bs.map fun b => Char.ofNat b.toNat
  let mark := Text.quoteMark t
  let quotedByte (c : Char) : Text :=
    if c.toNat < 0x80 then
      Text.quotedChar mark c
    else
      '\\' :: 'x' :: hexDigits 2 c.toNat
  'b' :: mark :: t.flatMap quotedByte ++ [mark]

mutual

/- A value as messages show it, with its texts quoted. -/
def quoted : Value → Text
  | null => "None".toList
  | flag isSet => (if isSet then "True" else "False").toList
  | number n => (toString n).toList
  | decimal d => d.text
  | infinite isNegative =>
      (if isNegative then "-inf" else "inf").toList
  | undefined => "nan".toList
  | text s => Text.quoted s.toList
  | bytes bs => quotedBytes bs
  | sequence items => '[' :: joined (quotedItems items) ++ [']']
  | mapping entries =>
      '\x7b' :: joined (quotedEntries entries) ++ ['\x7d']
  | other v => v.quoted.toList

/- The items of a sequence as messages show them. -/
def quotedItems : List Value → List Text
  | [] => []
  | v :: rest => quoted v :: quotedItems rest

/- The entries of a mapping as messages show them. -/
def quotedEntries : List (Value × Value) → List Text
  | [] => []
  | (k, v) :: rest =>
      (quoted k ++ ':' :: ' ' :: quoted v) :: quotedEntries rest

end

/- A value as it is put into a text. -/
def display
    (v : Value) : String :=
  match v with
  | text s => s
  | other v => v.shown
  | v => String.ofList v.quoted

end Value

end Whittle
