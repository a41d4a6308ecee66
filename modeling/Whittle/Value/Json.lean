import Whittle.Value.Basic

/-
  Values written as JSON.

  Key definitions include:
    * `Json.escaped`
    * `Value.json`
    * `Value.jsonSorted`

  Only ASCII characters are written: any other one stands as
  the escapes of its UTF-16 units.
-/

------------------------------------------------------------
-- Strings
------------------------------------------------------------

namespace Whittle

namespace Json

/- The escape of one UTF-16 unit. -/
def unitEscape
    (unit : Nat) : Text :=
  '\\' :: 'u' :: hexDigits 4 unit

/- One character of a string. -/
def escapedChar
    (c : Char) : Text :=
  let n := c.toNat
  if c = '"' || c = '\\' then
    ['\\', c]
  else if c = '\n' then
    ['\\', 'n']
  else if c = '\r' then
    ['\\', 'r']
  else if c = '\t' then
    ['\\', 't']
  else if n = 0x08 then
    ['\\', 'b']
  else if n = 0x0C then
    ['\\', 'f']
  else if 0x20 ≤ n && n ≤ 0x7E then
    [c]
  else if n < 0x10000 then
    unitEscape n
  else
    unitEscape (0xD800 + (n - 0x10000) / 0x400) ++
      unitEscape (0xDC00 + (n - 0x10000) % 0x400)

/- A string between quotes. -/
def escaped
    (s : String) : Text :=
  '"' :: s.toList.flatMap escapedChar ++ ['"']

end Json

end Whittle

------------------------------------------------------------
-- One Line
------------------------------------------------------------

namespace Whittle

namespace Value

/- The text of a value without parts. -/
def jsonScalar : Value → Text
  | null => "null".toList
  | flag isSet => (if isSet then "true" else "false").toList
  | number n => (toString n).toList
  | decimal d => d.text
  | infinite isNegative =>
      (if isNegative then "-Infinity" else "Infinity").toList
  | undefined => "NaN".toList
  | text s => Json.escaped s
  | _ => []

/- A key, which is always written as a string. -/
def jsonKey : Value → Text
  | text s => Json.escaped s
  | v => '"' :: v.jsonScalar ++ ['"']

mutual

/- A value on one line without blanks. -/
def json : Value → Text
  | sequence items =>
      '[' :: List.intercalate [','] (jsonItems items) ++ [']']
  | mapping entries =>
      '\x7b' :: List.intercalate [','] (jsonEntries entries) ++
        ['\x7d']
  | v => v.jsonScalar

/- The items of a sequence. -/
def jsonItems : List Value → List Text
  | [] => []
  | v :: rest => json v :: jsonItems rest

/- The entries of a mapping. -/
def jsonEntries : List (Value × Value) → List Text
  | [] => []
  | (k, v) :: rest =>
      (jsonKey k ++ ':' :: json v) :: jsonEntries rest

end

end Value

end Whittle

------------------------------------------------------------
-- Indented, With Sorted Keys
------------------------------------------------------------

namespace Whittle

namespace Value

/- The order of the keys of a mapping. -/
def keyAtMost
    (e f : Text × Text) : Bool :=
  Text.isAtMost e.1 f.1

/- Lines between brackets, each one level further in. -/
def bracketed
    (opening closing : Char)
    (depth : Nat)
    (pieces : List Text) : Text :=
  if pieces.isEmpty then
    [opening, closing]
  else
    let margin := List.replicate (2 * depth) ' '
    opening :: '\n' ::
      List.intercalate [',', '\n']
        (pieces.map fun p => ' ' :: ' ' :: margin ++ p) ++
      '\n' :: margin ++ [closing]

/- The text that a key is sorted by. -/
def keyText : Value → Text
  | text s => s.toList
  | v => v.jsonScalar

mutual

/- A value on several lines, `depth` levels in. -/
def jsonAt
    (depth : Nat) : Value → Text
  | sequence items =>
      bracketed '[' ']' depth (jsonItemsAt depth items)
  | mapping entries =>
      bracketed '\x7b' '\x7d' depth
        (((jsonEntriesAt depth entries).mergeSort
          keyAtMost).map (·.2))
  | v => v.jsonScalar

/- The items of a sequence, one level further in. -/
def jsonItemsAt
    (depth : Nat) : List Value → List Text
  | [] => []
  | v :: rest => jsonAt (depth + 1) v :: jsonItemsAt depth rest

/- The entries of a mapping with the keys they are sorted by. -/
def jsonEntriesAt
    (depth : Nat) : List (Value × Value) → List (Text × Text)
  | [] => []
  | (k, v) :: rest =>
      (keyText k, jsonKey k ++ ':' :: ' ' :: jsonAt (depth + 1) v) ::
        jsonEntriesAt depth rest

end

/- A value on several lines with sorted keys. -/
def jsonSorted
    (v : Value) : Text :=
  v.jsonAt 0

end Value

end Whittle
