import Whittle.Shell.Arithmetic
import Whittle.Shell.Grep

/-
  Writing arguments by a format.

  Key definitions include:
    * `echoed`
    * `FormatPart`
    * `formatParts`
    * `formatted`
-/

------------------------------------------------------------
-- Escapes
------------------------------------------------------------

namespace Whittle

namespace Shell

/- An octal digit. -/
def isOctal
    (c : Char) : Bool :=
  '0' ≤ c && c ≤ '7'

/- The character whose number octal digits write. -/
def octalChar
    (ds : Text) : Char :=
  Char.ofNat (((digitsIn? 8 ds).getD 0) % 256)

/- The character that a backslash and a letter write. -/
def escapedChar? : Char → Option Char
  | 'a' => some '\x07'
  | 'b' => some '\x08'
  | 'f' => some '\x0c'
  | 'n' => some '\n'
  | 'r' => some '\r'
  | 't' => some '\t'
  | 'v' => some '\x0b'
  | '\\' => some '\\'
  | _ => none

/-
  The character that is written after a backslash, and what
  follows.  `withZero` allows a zero in front of the digits.
-/
def readEscape
    (withZero : Bool)
    (t : Text) : Char × Text :=
  let start :=
    match t with
    | '0' :: rest => if withZero then rest else t
    | _ => t
  let ds := (start.take 3).takeWhile isOctal
  if t.head?.any isOctal then
    (octalChar ds, start.drop ds.length)
  else
    match t with
    | [] => ('\\', [])
    | c :: rest =>
        match escapedChar? c with
        | some d => (d, rest)
        | none => ('\\', t)

/-
  A text with its escapes replaced.  The flag tells that an
  escape has asked to stop there.
-/
def unescaped : (fuel : Nat) → Text → Text × Bool
  | 0, t => (t, false)
  | _ + 1, [] => ([], false)
  | fuel + 1, c :: rest =>
      if c = '\\' then
        if rest.head? = some 'c' then
          ([], true)
        else
          let (d, rest) := readEscape true rest
          let (more, stops) := unescaped fuel rest
          (d :: more, stops)
      else
        let (more, stops) := unescaped fuel rest
        (c :: more, stops)

/- The arguments with blanks between them and a line end. -/
def echoed
    (args : List Text) : Text :=
  let (args, ending) : List Text × Text :=
    match args with
    | ['-', 'n'] :: rest => (rest, [])
    | _ => (args, ['\n'])
  let joined := List.intercalate [' '] args
  let (t, stops) := unescaped (joined.length + 1) joined
  if stops then t else t ++ ending

end Shell

end Whittle

------------------------------------------------------------
-- Formats
------------------------------------------------------------

namespace Whittle

namespace Shell

/-
  A part of a format: a text, or a place for an argument with
  its flags, its width, its precision and its letter.  A
  width or precision without digits is an argument, too.
-/
inductive FormatPart where
| text (t : Text)
| place (flags : Text) (width : Option Text)
    (precision : Option (Option Text)) (letter : Char)
deriving DecidableEq, Repr

/- A number, or a star in its place. -/
def readAmount
    (t : Text) : Option Text × Text :=
  match t with
  | '*' :: rest => (none, rest)
  | _ =>
      let ds := t.takeWhile Char.isDigit
      (some ds, t.drop ds.length)

def formatParts : (fuel : Nat) → Text → List FormatPart
  | 0, _ => []
  | _ + 1, [] => []
  | fuel + 1, c :: rest =>
      if c = '\\' then
        let (d, rest) := readEscape false rest
        .text [d] :: formatParts fuel rest
      else if c = '%' then
        if rest.head? = some '%' then
          .text ['%'] :: formatParts fuel (rest.drop 1)
        else
          let flags := rest.takeWhile fun c => "-+ 0#".toList.contains c
          let (width, rest) := readAmount (rest.drop flags.length)
          let (precision, rest) :=
            match rest with
            | '.' :: rest =>
                let (amount, rest) := readAmount rest
                (some amount, rest)
            | _ => (none, rest)
          match rest with
          | [] => []
          | letter :: rest =>
              .place flags width precision letter ::
                formatParts fuel rest
      else
        .text [c] :: formatParts fuel rest

/-
  How far a format has been written: the text, the arguments
  that are left, whether one has been used, whether all has
  gone well, and whether an escape has asked to stop.
-/
structure Formatting where
  text : Text
  args : List Text
  isUsed : Bool
  isGood : Bool
  isOver : Bool
deriving Repr, Inhabited

namespace Formatting

/- The next argument, or an empty one. -/
def next
    (f : Formatting) : Text × Formatting :=
  match f.args with
  | [] => ([], f)
  | arg :: rest => (arg, { f with args := rest, isUsed := true })

/- Add a text. -/
def add
    (f : Formatting)
    (t : Text) : Formatting :=
  { f with text := f.text ++ t }

/- The number that an argument writes, if it is a number. -/
def numberOf?
    (arg : Text) : Option Int :=
  match arg with
  | [] => some 0
  | '\'' :: c :: _ => some c.toNat
  | '"' :: c :: _ => some c.toNat
  | '-' :: ds => (natural? ds).map fun n => -(n : Int)
  | '+' :: ds => (natural? ds).map Int.ofNat
  | ds => (natural? (ds.dropWhile (· = ' '))).map Int.ofNat

/- The next argument as a number. -/
def nextNumber
    (f : Formatting) : Int × Formatting :=
  let (arg, f) := f.next
  match numberOf? arg with
  | some n => (n, f)
  | none => (0, { f with isGood := false })

/- A width or a precision. -/
def amount
    (f : Formatting)
    (given : Option Text) : Nat × Formatting :=
  match given with
  | some ds => ((digitsIn? 10 ds).getD 0, f)
  | none =>
      let (n, f) := f.nextNumber
      (n.toNat, f)

end Formatting

/- A text that is filled up to a width. -/
def padded
    (flags : Text)
    (width : Nat)
    (isNumber : Bool)
    (sign digits : Text) : Text :=
  let missing := width - (sign.length + digits.length)
  if flags.contains '-' then
    sign ++ digits ++ List.replicate missing ' '
  else if flags.contains '0' && isNumber then
    sign ++ List.replicate missing '0' ++ digits
  else
    List.replicate missing ' ' ++ sign ++ digits

/- The digits of a number, at least so many of them. -/
def digitsOf
    (base least : Nat)
    (n : Nat) : Text :=
  let ds := Nat.toDigits base n
  List.replicate (least - ds.length) '0' ++ ds

/- The sign of a number. -/
def signOf
    (flags : Text)
    (n : Int) : Text :=
  if n < 0 then
    ['-']
  else if flags.contains '+' then
    ['+']
  else if flags.contains ' ' then
    [' ']
  else
    []

namespace Formatting

/- Write one part of a format. -/
def write
    (f : Formatting)
    (part : FormatPart) : Formatting :=
  if f.isOver then
    f
  else
    match part with
    | .text t => f.add t
    | .place flags width precision letter =>
        let (width, f) := f.amount width
        let (least, f) :=
          match precision with
          | none => (none, f)
          | some given =>
              let (n, f) := f.amount given
              (some n, f)
        let plain (arg : Text) (f : Formatting) : Formatting :=
          f.add
            (padded flags width false []
              ((least.map arg.take).getD arg))
        let natural (base : Nat) : Formatting :=
          let (n, f) := f.nextNumber
          let ds := digitsOf base (least.getD 1) (n % wordSize).toNat
          f.add (padded flags width least.isNone [] ds)
        match letter with
        | 's' =>
            let (arg, f) := f.next
            plain arg f
        | 'b' =>
            let (arg, f) := f.next
            let (t, stops) := unescaped (arg.length + 1) arg
            { plain t f with isOver := stops }
        | 'c' =>
            let (arg, f) := f.next
            f.add (padded flags width false [] (arg.take 1))
        | 'd' | 'i' =>
            let (n, f) := f.nextNumber
            f.add
              (padded flags width least.isNone (signOf flags n)
                (digitsOf 10 (least.getD 1) n.natAbs))
        | 'u' => natural 10
        | 'o' => natural 8
        | 'x' => natural 16
        | 'X' =>
            let upper := natural 16
            { upper with
              text :=
                f.text ++
                  (upper.text.drop f.text.length).map Char.toUpper }
        | _ => { f with isGood := false, isOver := true }

/-
  Write all parts, and again as long as arguments are left.
-/
def writeAll
    (parts : List FormatPart) :
    (fuel : Nat) → Formatting → Formatting
  | 0, f => f
  | fuel + 1, f =>
      let f := parts.foldl write { f with isUsed := false }
      if f.args.isEmpty || !f.isUsed || f.isOver then
        f
      else
        writeAll parts fuel f

end Formatting

/- What a format makes of its arguments. -/
def formatted
    (format : Text)
    (args : List Text) : ToolResult :=
  let parts := formatParts (format.length + 1) format
  let f :=
    Formatting.writeAll parts (args.length + 1)
      ⟨[], args, false, true, false⟩
  if f.isGood then
    ⟨f.text, [], 0⟩
  else
    ⟨f.text, "printf: invalid number or directive\n".toList, 1⟩

end Shell

end Whittle
