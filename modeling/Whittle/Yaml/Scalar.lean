import Whittle.Value.Basic

/-
  What the plain words of a YAML 1.1 document mean.

  Key definitions include:
    * `Yaml.integer?`
    * `Yaml.decimal?`
    * `Yaml.date?`
    * `Yaml.plain`

  Times of a day and fractions in base sixty are left as texts.
-/

------------------------------------------------------------
-- Digits
------------------------------------------------------------

namespace Whittle

namespace Yaml

/- A digit from zero to nine. -/
def isFigure
    (c : Char) : Bool :=
  '0' ≤ c && c ≤ '9'

/- A digit, or an underscore that stands between digits. -/
def isFigureOrJoint
    (c : Char) : Bool :=
  isFigure c || c = '_'

/- The digits of a text without the underscores. -/
def withoutJoints
    (t : Text) : Text :=
  t.filter (· ≠ '_')

/- The number that digits write in a base. -/
def numberIn
    (base : Nat)
    (t : Text) : Nat :=
  (withoutJoints t).foldl
    (fun n c => n * base + (hexValue? c).getD 0) 0

/- The part of a text after its sign, and whether it is negative. -/
def unsigned : Text → Bool × Text
  | '-' :: rest => (true, rest)
  | '+' :: rest => (false, rest)
  | t => (false, t)

/- The negative of a number, if so asked. -/
def signed
    (isNegative : Bool)
    (n : Nat) : Int :=
  if isNegative then -(n : Int) else n

end Yaml

end Whittle

------------------------------------------------------------
-- Integers
------------------------------------------------------------

namespace Whittle

namespace Yaml

/- Parts of a number in base sixty after the first one. -/
def isSixtieth
    (t : Text) : Bool :=
  match t with
  | [c] => isFigure c
  | [c, d] => '0' ≤ c && c ≤ '5' && isFigure d
  | _ => false

/- A natural number in decimal that does not start with zero. -/
def isPlainNatural : Text → Bool
  | [] => false
  | c :: rest =>
      '1' ≤ c && c ≤ '9' && rest.all isFigureOrJoint

/- A number in base sixty with colons between its parts. -/
def sexagesimal?
    (t : Text) : Option Nat :=
  match t.splitOn ':' with
  | first :: second :: more =>
      if isPlainNatural first &&
          (second :: more).all isSixtieth then
        some
          ((second :: more).foldl
            (fun n part => n * 60 + numberIn 10 part)
            (numberIn 10 first))
      else
        none
  | _ => none

/- A natural number in any of the notations. -/
def natural?
    (t : Text) : Option Nat :=
  match t with
  | '0' :: 'b' :: digits =>
      if !digits.isEmpty &&
          digits.all fun c => c = '0' || c = '1' || c = '_' then
        some (numberIn 2 digits)
      else
        none
  | '0' :: 'x' :: digits =>
      if !digits.isEmpty &&
          digits.all fun c => (hexValue? c).isSome || c = '_' then
        some (numberIn 16 digits)
      else
        none
  | ['0'] => some 0
  | '0' :: digits =>
      if digits.all fun c => ('0' ≤ c && c ≤ '7') || c = '_' then
        some (numberIn 8 digits)
      else
        none
  | t =>
      if isPlainNatural t then
        some (numberIn 10 t)
      else
        sexagesimal? t

/- An integer with an optional sign. -/
def integer?
    (t : Text) : Option Int :=
  let (isNegative, digits) := unsigned t
  (natural? digits).map (signed isNegative)

end Yaml

end Whittle

------------------------------------------------------------
-- Decimal Fractions
------------------------------------------------------------

namespace Whittle

namespace Yaml

/- The power of ten at the end of a fraction, or nothing. -/
def exponent? : Text → Option Int
  | [] => some 0
  | e :: sign :: digits =>
      if (e = 'e' || e = 'E') && (sign = '+' || sign = '-') &&
          !digits.isEmpty && digits.all isFigure then
        some (signed (sign = '-') (numberIn 10 digits))
      else
        none
  | _ => none

/- The fraction with the given digits and power of ten. -/
def scaled
    (isNegative : Bool)
    (digits : Text)
    (places : Nat)
    (power : Int) : Decimal :=
  let n := numberIn 10 digits
  if power < 0 then
    ⟨signed isNegative n, places + power.natAbs⟩
  else
    ⟨signed isNegative (n * Nat.pow 10 power.toNat), places⟩

/- A fraction with a point and an optional power of ten. -/
def decimal?
    (t : Text) : Option Decimal :=
  let (isNegative, body) := unsigned t
  let whole := body.takeWhile isFigureOrJoint
  match body.dropWhile isFigureOrJoint with
  | '.' :: rest =>
      let places := rest.takeWhile isFigureOrJoint
      let isProper :=
        match whole, places with
        | c :: _, _ => isFigure c
        | [], c :: _ => isFigure c && body.length = t.length
        | [], [] => false
      if isProper then
        (exponent? (rest.dropWhile isFigureOrJoint)).map
          (scaled isNegative (whole ++ places)
            (withoutJoints places).length)
      else
        none
  | _ => none

end Yaml

end Whittle

------------------------------------------------------------
-- Other Numbers And Dates
------------------------------------------------------------

namespace Whittle

namespace Yaml

/- The words for numbers without digits. -/
def endless?
    (t : Text) : Option Value :=
  let (isNegative, word) := unsigned t
  if [".inf", ".Inf", ".INF"].contains (String.ofList word) then
    some (.infinite isNegative)
  else if [".nan", ".NaN", ".NAN"].contains (String.ofList t) then
    some .undefined
  else
    none

/- The year, month and day that a text has the form of. -/
def dateParts? : Text → Option (Nat × Nat × Nat)
  | [a, b, c, d, '-', e, f, '-', g, h] =>
      if [a, b, c, d, e, f, g, h].all isFigure then
        some
          (numberIn 10 [a, b, c, d], numberIn 10 [e, f],
            numberIn 10 [g, h])
      else
        none
  | _ => none

/- The number of days of a month. -/
def daysOf
    (year month : Nat) : Nat :=
  if month = 2 then
    if year % 4 = 0 && (year % 100 ≠ 0 || year % 400 = 0) then
      29
    else
      28
  else if [4, 6, 9, 11].contains month then
    30
  else
    31

/- A date of the calendar. -/
def date?
    (t : Text)
    (year month day : Nat) : Option Value :=
  if 1 ≤ year && 1 ≤ month && month ≤ 12 && 1 ≤ day &&
      day ≤ daysOf year month then
    some
      (.other
        { shown := String.ofList t
          quoted :=
            "datetime.date(" ++ toString year ++ ", " ++
              toString month ++ ", " ++ toString day ++ ")"
          isTrue := true
          isKey := true
          hasItems := false })
  else
    none

end Yaml

end Whittle

------------------------------------------------------------
-- Plain Words
------------------------------------------------------------

namespace Whittle

namespace Yaml

/-
  The meaning of a plain word: a value, the key whose value
  is merged into the mapping, or the sign for a value that
  has no meaning here.
-/
inductive Plain where
| value (v : Value)
| merge
| equals
deriving Repr, Inhabited

/- The words for true and false. -/
def flagWords : List (String × Bool) :=
  [("yes", true), ("Yes", true), ("YES", true),
    ("true", true), ("True", true), ("TRUE", true),
    ("on", true), ("On", true), ("ON", true),
    ("no", false), ("No", false), ("NO", false),
    ("false", false), ("False", false), ("FALSE", false),
    ("off", false), ("Off", false), ("OFF", false)]

/- The words for no value. -/
def nullWords : List String :=
  ["", "~", "null", "Null", "NULL"]

/-
  The meaning of a plain word.  A date that is not in the
  calendar has none.
-/
def plain
    (t : Text) : Plain :=
  let word := String.ofList t
  if nullWords.contains word then
    .value .null
  else if word = "<<" then
    .merge
  else if word = "=" then
    .equals
  else
    match flagWords.lookup word with
    | some isSet => .value (.flag isSet)
    | none =>
        match integer? t with
        | some n => .value (.number n)
        | none =>
            match decimal? t with
            | some d => .value (.decimal d)
            | none =>
                match endless? t, dateParts? t with
                | some v, _ => .value v
                | none, some (year, month, day) =>
                    match date? t year month day with
                    | some v => .value v
                    | none => .equals
                | none, none => .value (.text word)

end Yaml

end Whittle
