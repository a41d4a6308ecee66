import Whittle.Shell.Raw

/-
  Words whose parts have been replaced by their values, the
  fields they are split into, and patterns of characters.

  Key definitions include:
    * `Glyph`
    * `fieldsOf`
    * `Glob.ofGlyphs`
    * `Glob.fits`
    * `Glob.paths`
-/

------------------------------------------------------------
-- Fields
------------------------------------------------------------

namespace Whittle

namespace Shell

/-
  A character of a word.
    * `quoted` : it stands for itself.
    * `plain` : it may be a sign of a pattern.
    * `value` : it comes from a value that is not quoted, so
      that it may end a field, too.
    * `border` : here one field ends and another one begins.
    * `nothing` : what is quoted here is empty.
-/
inductive Glyph where
| quoted (c : Char)
| plain (c : Char)
| value (c : Char)
| border
| nothing
deriving DecidableEq, Repr

namespace Glyph

/- The character that a glyph stands for. -/
def char? : Glyph → Option Char
  | quoted c => some c
  | plain c => some c
  | value c => some c
  | border => none
  | nothing => none

/- The text that glyphs write. -/
def textOf
    (gs : List Glyph) : Text :=
  gs.filterMap char?

end Glyph

/- The characters that split fields if nothing else is set. -/
def usualSeparators : Text :=
  " \t\n".toList

/-
  Split glyphs into fields.  `current` holds the field that is
  being read, in reverse, if it has begun.  Blanks only end
  a field that has begun, other separators always end one.
-/
def splitFields
    (separators : Text) :
    (current : Option (List Glyph)) → List Glyph →
      List (List Glyph)
  | current, [] => (current.map List.reverse).toList
  | current, g :: rest =>
      match g with
      | .value c =>
          if separators.contains c then
            if usualSeparators.contains c then
              (current.map List.reverse).toList ++
                splitFields separators none rest
            else
              (current.getD []).reverse ::
                splitFields separators none rest
          else
            splitFields separators (some (g :: current.getD [])) rest
      | .border =>
          (current.getD []).reverse ::
            splitFields separators (some []) rest
      | .nothing =>
          splitFields separators (some (current.getD [])) rest
      | _ =>
          splitFields separators (some (g :: current.getD [])) rest

/- The fields of a word. -/
def fieldsOf
    (separators : Text)
    (gs : List Glyph) : List (List Glyph) :=
  splitFields separators none gs

end Shell

end Whittle

------------------------------------------------------------
-- Patterns
------------------------------------------------------------

namespace Whittle

namespace Shell

/- A part of a pattern: one character of a class, or any text. -/
inductive Glob where
| one (accepts : Char → Bool)
| many

/- A text and what is left of it, dropping from its start. -/
def tailsOf : Text → List Text
  | [] => [[]]
  | c :: rest => (c :: rest) :: tailsOf rest

/- A character between two others. -/
def isBetween
    (low high c : Char) : Bool :=
  low ≤ c && c ≤ high

/- The classes of characters that have names. -/
def namedClass? : String → Option (Char → Bool)
  | "alpha" => some Char.isAlpha
  | "digit" => some Char.isDigit
  | "alnum" => some Char.isAlphanum
  | "upper" => some Char.isUpper
  | "lower" => some Char.isLower
  | "space" => some fun c => c = ' ' || isBetween '\t' '\r' c
  | "blank" => some fun c => c = ' ' || c = '\t'
  | "punct" => some fun c => isBetween '!' '~' c && !c.isAlphanum
  | "xdigit" => some fun c => (hexValue? c).isSome
  | "print" => some (isBetween ' ' '~')
  | "graph" => some (isBetween '!' '~')
  | "cntrl" => some fun c => c < ' ' || c = '\x7f'
  | _ => none

/-
  The class that is written between brackets: what follows
  the opening one, up to the closing one.  `isFirst` tells
  that a closing bracket would be part of the class.
-/
def readClass? :
    (fuel : Nat) → (isFirst : Bool) → Text →
      Option ((Char → Bool) × Text)
  | 0, _, _ => none
  | fuel + 1, isFirst, t =>
      let orElse (f : Char → Bool) (rest : Text) :=
        (readClass? fuel false rest).map fun (g, rest) =>
          (fun c => f c || g c, rest)
      match t with
      | [] => none
      | '[' :: ':' :: rest =>
          let name := rest.takeWhile Char.isAlpha
          match namedClass? (String.ofList name),
              rest.drop name.length with
          | some f, ':' :: ']' :: rest => orElse f rest
          | _, _ => orElse (· = '[') (':' :: rest)
      | low :: '-' :: high :: rest =>
          if low = ']' && !isFirst then
            some (fun _ => false, '-' :: high :: rest)
          else if high = ']' then
            orElse (· = low) ('-' :: high :: rest)
          else
            orElse (isBetween low high) rest
      | c :: rest =>
          if c = ']' && !isFirst then
            some (fun _ => false, rest)
          else
            orElse (· = c) rest

/- A class between brackets, which may be negated. -/
def readBracket?
    (negations : Text)
    (t : Text) : Option ((Char → Bool) × Text) :=
  match t with
  | [] => none
  | c :: rest =>
      if negations.contains c then
        (readClass? t.length true rest).map fun (f, rest) =>
          (fun c => !f c, rest)
      else
        readClass? (t.length + 1) true t

namespace Glob

/- The pattern that glyphs write. -/
def ofGlyphs : (fuel : Nat) → List Glyph → List Glob
  | 0, _ => []
  | _ + 1, [] => []
  | fuel + 1, g :: rest =>
      match g with
      | .quoted c => .one (· = c) :: ofGlyphs fuel rest
      | .border => ofGlyphs fuel rest
      | .nothing => ofGlyphs fuel rest
      | .plain c | .value c =>
          if c = '*' then
            .many :: ofGlyphs fuel rest
          else if c = '?' then
            .one (fun _ => true) :: ofGlyphs fuel rest
          else if c = '[' then
            let inside := Glyph.textOf rest
            match readBracket? "!^".toList inside with
            | some (f, left) =>
                .one f ::
                  ofGlyphs fuel
                    (rest.drop (inside.length - left.length))
            | none => .one (· = c) :: ofGlyphs fuel rest
          else
            .one (· = c) :: ofGlyphs fuel rest

/- The pattern of a word. -/
def ofWord
    (gs : List Glyph) : List Glob :=
  ofGlyphs (gs.length + 1) gs

/- A text fits a pattern. -/
def fits : List Glob → Text → Bool
  | [], t => t.isEmpty
  | .many :: rest, t => (tailsOf t).any (fits rest)
  | .one accepts :: rest, t =>
      match t with
      | [] => false
      | c :: t => accepts c && fits rest t

end Glob

/- A glyph may be a sign of a pattern. -/
def isPatternSign : Glyph → Bool
  | .plain c => "*?[".toList.contains c
  | .value c => "*?[".toList.contains c
  | _ => false

namespace Glob

/- A name fits a part of a pattern for paths. -/
def fitsName
    (gs : List Glyph)
    (name : String) : Bool :=
  let name := rawString name
  let isHidden := name.head? = some '.'
  let asksForHidden := (Glyph.textOf gs).head? = some '.'
  (!isHidden || asksForHidden) && fits (ofWord gs) name

/- The paths on a disk that fit a pattern, sorted. -/
def paths
    (d : Disk)
    (gs : List Glyph) : List Text :=
  let parts := splitWhere (·.char? = some '/') gs
  let found := d.entries.filter fun (p, _) =>
    !p.isAbsolute && p.parts.length = parts.length &&
      (parts.zip p.parts).all fun (part, name) =>
        fitsName part name
  (found.map fun (p, _) => rawString p.text).mergeSort
    Text.isAtMost

end Glob

/- The text of a field, or the paths that it stands for. -/
def textsOfField
    (d : Disk)
    (gs : List Glyph) : List Text :=
  let found :=
    if gs.any isPatternSign then Glob.paths d gs else []
  if found.isEmpty then [Glyph.textOf gs] else found

end Shell

end Whittle
