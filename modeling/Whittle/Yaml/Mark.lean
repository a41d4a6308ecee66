import Whittle.Text.Blank
import Whittle.Text.Quoted

/-
  The marks of a YAML document.

  Key definitions include:
    * `Yaml.Mark`
    * `Yaml.Place`
    * `Yaml.readPlain`
    * `Yaml.readQuoted?`
    * `Yaml.readBlock?`

  A mark is a sign, a word or the start or end of a level.
  This module holds the marks and the reading of words.
-/

------------------------------------------------------------
-- Marks
------------------------------------------------------------

namespace Whittle

namespace Yaml

/- The marks that a document is made of. -/
inductive Mark where
| openSequence
| openMapping
| closeBlock
| openBracket
| closeBracket
| openBrace
| closeBrace
| item
| comma
| key
| value
| anchor (name : Text)
| reference (name : Text)
| tag (name : Text)
| word (t : Text) (isPlain : Bool)
| documentStart
| documentEnd
deriving DecidableEq, Repr, Inhabited

/- A character that ends a line. -/
def isLineEnd
    (c : Char) : Bool :=
  c = '\n' || c = '\r' || c.toNat = 0x85 ||
    c.toNat = 0x2028 || c.toNat = 0x2029

/- A blank, the end of a line or the end of the text. -/
def isGapAt
    (c : Option Char) : Bool :=
  match c with
  | none => true
  | some c => c = ' ' || c = '\t' || isLineEnd c

/- A place in a text with what is still to be read. -/
structure Place where
  rest : Text
  index : Nat
  line : Nat
  column : Nat
deriving Repr, Inhabited

namespace Place

/- The start of a text. -/
def start
    (t : Text) : Place :=
  ⟨t, 0, 0, 0⟩

/- The character that stands some characters further on. -/
def peek
    (p : Place)
    (k : Nat) : Option Char :=
  p.rest[k]?

/- Go over one character. -/
def next
    (p : Place) : Place :=
  match p.rest with
  | [] => p
  | c :: rest =>
      if isLineEnd c then
        ⟨rest, p.index + 1, p.line + 1, 0⟩
      else
        ⟨rest, p.index + 1, p.line, p.column + 1⟩

/- Go over some characters. -/
def forward
    (p : Place) : Nat → Place
  | 0 => p
  | k + 1 => (p.next).forward k

/- Go over all characters of a class. -/
def past
    (p : Place)
    (isInside : Char → Bool) : Place :=
  p.forward (p.rest.takeWhile isInside).length

/- A line that separates documents starts here. -/
def isAtSeparator
    (p : Place) : Bool :=
  p.column = 0 && isGapAt (p.peek 3) &&
    (p.rest.take 3 = "---".toList || p.rest.take 3 = "...".toList)

/- The line end that starts here, as it is kept in a word. -/
def lineEnd
    (p : Place) : Text :=
  p.rest.take 1

end Place

end Yaml

end Whittle

------------------------------------------------------------
-- Folded Lines
------------------------------------------------------------

namespace Whittle

namespace Yaml

/-
  What a break between two lines of a word becomes: one line
  end counts as a blank, and further ones are kept.
-/
def foldedBreak
    (first : Text)
    (more : Text) : Text :=
  if first ≠ ['\n'] then
    first ++ more
  else if more.isEmpty then
    [' ']
  else
    more

/-
  Go over line ends and the blanks after them, and collect
  the line ends.  Nothing is returned at a separator.
-/
def lineEnds
    (isBlank : Char → Bool) :
    (fuel : Nat) → Text → Place → Option (Text × Place)
  | 0, ends, p => some (ends, p)
  | fuel + 1, ends, p =>
      if p.isAtSeparator then
        none
      else
        let p := p.past isBlank
        match p.peek 0 with
        | some c =>
            if isLineEnd c then
              lineEnds isBlank fuel (ends ++ [c]) p.next
            else
              some (ends, p)
        | none => some (ends, p)

end Yaml

end Whittle

------------------------------------------------------------
-- Plain Words
------------------------------------------------------------

namespace Whittle

namespace Yaml

/- How far a plain word goes without a gap. -/
def plainLength
    (isInFlow : Bool) : Text → Nat
  | [] => 0
  | c :: rest =>
      let ends :=
        isGapAt (some c) ||
          (c = ':' &&
            (isGapAt rest.head? ||
              (isInFlow &&
                (rest.head?.map ",[]\x7b\x7d".toList.contains).getD
                  false))) ||
          (isInFlow && ",?[]\x7b\x7d".toList.contains c)
      if ends then 0 else plainLength isInFlow rest + 1

/-
  The gap after a piece of a plain word, the place after it,
  and whether a line has ended.  The gap is empty where the
  word cannot go on.
-/
def plainGap
    (p : Place) : Text × Place × Bool :=
  let blanks := p.rest.takeWhile (· = ' ')
  let p := p.forward blanks.length
  match p.peek 0 with
  | some c =>
      if isLineEnd c then
        let first := p.lineEnd
        match lineEnds (· = ' ') p.rest.length [] p.next with
        | none => ([], p.next, true)
        | some (more, q) => (foldedBreak first more, q, true)
      else
        (blanks, p, false)
  | none => (blanks, p, false)

/-
  A plain word: its text, the place after it, and whether a
  line has ended on the way.  `margin` is the least column
  that lines after the first one start at.
-/
def readPlain
    (isInFlow : Bool)
    (margin : Int) :
    (fuel : Nat) → (gap : Text) → Place → Bool → Text × Place × Bool
  | 0, _, p, broken => ([], p, broken)
  | fuel + 1, gap, p, broken =>
      let length := plainLength isInFlow p.rest
      if p.peek 0 = some '#' || length = 0 then
        ([], p, broken)
      else
        let piece := p.rest.take length
        let (after, q, ended) := plainGap (p.forward length)
        if after.isEmpty || q.peek 0 = some '#' ||
            (!isInFlow && (q.column : Int) < margin) then
          (gap ++ piece, q, ended)
        else
          let (more, q, ended) :=
            readPlain isInFlow margin fuel after q ended
          (gap ++ piece ++ more, q, ended)

end Yaml

end Whittle

------------------------------------------------------------
-- Quoted Words
------------------------------------------------------------

namespace Whittle

namespace Yaml

/- The characters that a backslash and a letter stand for. -/
def letterEscapes : List (Char × Nat) :=
  [('0', 0), ('a', 7), ('b', 8), ('t', 9), ('\t', 9), ('n', 10),
    ('v', 11), ('f', 12), ('r', 13), ('e', 27), (' ', 32),
    ('"', 34), ('\\', 92), ('/', 47), ('N', 0x85), ('_', 0xA0),
    ('L', 0x2028), ('P', 0x2029)]

/- How many digits the escape of a code point has. -/
def codeEscapes : List (Char × Nat) :=
  [('x', 2), ('u', 4), ('U', 8)]

/- The code point that hexadecimal digits write. -/
def codePoint?
    (digits : Text) : Option Nat :=
  (digits.mapM hexValue?).map
    (·.foldl (fun n d => n * 16 + d) 0)

/- What an escape stands for, and the place after it. -/
def escape?
    (p : Place) : Option (Text × Place) :=
  match p.peek 0 with
  | none => none
  | some c =>
      match letterEscapes.lookup c with
      | some code => some ([Char.ofNat code], p.next)
      | none =>
          match codeEscapes.lookup c with
          | some width =>
              let digits := (p.next.rest).take width
              if digits.length = width then
                (codePoint? digits).map fun code =>
                  ([Char.ofNat code], p.forward (width + 1))
              else
                none
          | none =>
              if isLineEnd c then
                lineEnds isLayout p.rest.length [] p.next
              else
                none

/-
  The rest of a quoted word up to its closing quote.  It
  fails at the end of the text and at a separator.
-/
def readQuoted?
    (mark : Char) :
    (fuel : Nat) → Place → Option (Text × Place)
  | 0, _ => none
  | fuel + 1, p =>
      match p.peek 0 with
      | none => none
      | some c =>
          let goOn (piece : Text) (q : Place) :=
            (readQuoted? mark fuel q).map
              fun (more, q) => (piece ++ more, q)
          if c = mark then
            if mark = '\'' && p.peek 1 = some '\'' then
              goOn ['\''] (p.forward 2)
            else
              some ([], p.next)
          else if c = '\\' && mark = '"' then
            match escape? p.next with
            | none => none
            | some (piece, q) => goOn piece q
          else if isGapAt (some c) then
            let blanks := p.rest.takeWhile isLayout
            let q := p.forward blanks.length
            match q.peek 0 with
            | none => none
            | some d =>
                if isLineEnd d then
                  match lineEnds isLayout q.rest.length []
                      q.next with
                  | none => none
                  | some (more, r) =>
                      goOn (foldedBreak q.lineEnd more) r
                else
                  goOn blanks q
          else
            goOn [c] p.next

end Yaml

end Whittle

------------------------------------------------------------
-- Block Words
------------------------------------------------------------

namespace Whittle

namespace Yaml

/- How the line ends after a block word are kept. -/
inductive Chomping where
| strip
| clip
| keep
deriving DecidableEq, Repr

/- The sign of a chomping. -/
def chomping?
    (c : Char) : Option Chomping :=
  if c = '+' then
    some .keep
  else if c = '-' then
    some .strip
  else
    none

/- A digit from one to nine. -/
def increment?
    (c : Char) : Option Nat :=
  if '1' ≤ c && c ≤ '9' then hexValue? c else none

/-
  The signs after the bar: chomping and increment, in any
  order.
-/
def blockSigns
    (p : Place) : Chomping × Option Nat × Place :=
  let first := (p.peek 0).bind chomping?
  match first with
  | some chomping =>
      match (p.peek 1).bind increment? with
      | some n => (chomping, some n, p.forward 2)
      | none => (chomping, none, p.next)
  | none =>
      match (p.peek 0).bind increment? with
      | some n =>
          match (p.peek 1).bind chomping? with
          | some chomping => (chomping, some n, p.forward 2)
          | none => (.clip, some n, p.next)
      | none => (.clip, none, p)

/- Go over the rest of a line that holds at most a comment. -/
def endOfLine?
    (p : Place) : Option Place :=
  let p := p.past (· = ' ')
  let p :=
    if p.peek 0 = some '#' then
      p.past (!isLineEnd ·)
    else
      p
  match p.peek 0 with
  | none => some p
  | some c => if isLineEnd c then some p.next else none

/-
  Go over blank lines to the first line of a block word: the
  line ends, the greatest column on the way and the place.
-/
def blockIndentation :
    (fuel : Nat) → Text → Nat → Place → Text × Nat × Place
  | 0, ends, widest, p => (ends, widest, p)
  | fuel + 1, ends, widest, p =>
      match p.peek 0 with
      | some c =>
          if c = ' ' then
            blockIndentation fuel ends
              (max widest p.next.column) p.next
          else if isLineEnd c then
            blockIndentation fuel (ends ++ [c]) widest p.next
          else
            (ends, widest, p)
      | none => (ends, widest, p)

/- Go over blanks up to a column. -/
def upToColumn
    (indent : Nat) :
    (fuel : Nat) → Place → Place
  | 0, p => p
  | fuel + 1, p =>
      if p.column < indent && p.peek 0 = some ' ' then
        upToColumn indent fuel p.next
      else
        p

/- Go over blank lines inside a block word. -/
def blockBreaks
    (indent : Nat) :
    (fuel : Nat) → Text → Place → Text × Place
  | 0, ends, p => (ends, p)
  | fuel + 1, ends, p =>
      let p := upToColumn indent indent p
      match p.peek 0 with
      | some c =>
          if isLineEnd c then
            blockBreaks indent fuel (ends ++ [c]) p.next
          else
            (ends, p)
      | none => (ends, p)

/-
  The lines of a block word at a column.  `before` are the
  line ends in front of the next line.  The result are the
  text, the last line end, the line ends after it and the
  place.
-/
def blockLines
    (isFolded : Bool)
    (indent : Nat) :
    (fuel : Nat) → (before : Text) → (last : Text) → Place →
      Text × Text × Text × Place
  | 0, before, last, p => ([], last, before, p)
  | fuel + 1, before, last, p =>
      if p.column = indent && (p.peek 0).isSome then
        let startsPlain := !((p.peek 0).map isLayout).getD false
        let line := p.rest.takeWhile (!isLineEnd ·)
        let q := p.forward line.length
        let ending := q.lineEnd
        let (breaks, q) := blockBreaks indent q.rest.length [] q.next
        let joint :=
          if q.column = indent && (q.peek 0).isSome then
            let goesOnPlain :=
              !((q.peek 0).map isLayout).getD false
            if isFolded && ending = ['\n'] && startsPlain &&
                goesOnPlain then
              if breaks.isEmpty then [' '] else []
            else
              ending
          else
            []
        let (more, last, after, q) :=
          blockLines isFolded indent fuel breaks ending q
        (before ++ line ++ joint ++ more, last, after, q)
      else
        ([], last, before, p)

/- A block word after its bar or bow. -/
def readBlock?
    (isFolded : Bool)
    (outer : Int)
    (p : Place) : Option (Text × Place) :=
  let (chomping, increment, p) := blockSigns p
  match endOfLine? p with
  | none => none
  | some p =>
      let least := max 1 (outer + 1).toNat
      let (indent, before, p) :=
        match increment with
        | some n =>
            let indent := least + n - 1
            let (ends, p) := blockBreaks indent p.rest.length [] p
            (indent, ends, p)
        | none =>
            let (ends, widest, p) :=
              blockIndentation p.rest.length [] 0 p
            (max least widest, ends, p)
      let (text, last, after, p) :=
        blockLines isFolded indent (p.rest.length + 1) before [] p
      let tail :=
        match chomping with
        | .strip => []
        | .clip => last
        | .keep => last ++ after
      some (text ++ tail, p)

end Yaml

end Whittle
