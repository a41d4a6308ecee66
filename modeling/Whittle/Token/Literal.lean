import Whittle.Text.Quoted
import Whittle.Token.Basic

/-
  The insides of string literals.

  Key definitions include:
    * `hasValidEscapes`
    * `Template`
    * `readTemplate?`

  A formatted literal is a template: pieces of text, and
  fields in braces that hold expressions.  A format after a
  colon is a template of its own.
-/

------------------------------------------------------------
-- Escapes
------------------------------------------------------------

namespace Whittle

/- The first `n` characters are hexadecimal digits. -/
def startsWithHex
    (n : Nat)
    (t : Text) : Bool :=
  (t.take n).length = n &&
    (t.take n).all fun c => (hexValue? c).isSome

/- The number that some hexadecimal digits write. -/
def valueOfHex
    (t : Text) : Nat :=
  t.foldl (fun n c => 16 * n + (hexValue? c).getD 0) 0

/- The name of a character stands in braces at the start. -/
def startsWithName
    (isName : String → Bool)
    (t : Text) : Bool :=
  match t with
  | '\x7b' :: inside =>
      let name := inside.takeWhile (· ≠ '\x7d')
      name.length < inside.length &&
        isName (String.ofList name)
  | _ => false

/- What follows a backslash and a letter fits the letter. -/
def isValidEscape
    (isName : String → Bool)
    (isBytes : Bool)
    (letter : Char)
    (rest : Text) : Bool :=
  if letter = 'x' then
    startsWithHex 2 rest
  else if isBytes then
    true
  else if letter = 'u' then
    startsWithHex 4 rest
  else if letter = 'U' then
    startsWithHex 8 rest &&
      valueOfHex (rest.take 8) ≤ 0x10FFFF
  else if letter = 'N' then
    startsWithName isName rest
  else
    true

/- Every escape of a text is complete. -/
def hasValidEscapes
    (isName : String → Bool)
    (isBytes : Bool) : Text → Bool
  | [] => true
  | ['\\'] => true
  | '\\' :: letter :: rest =>
      isValidEscape isName isBytes letter rest &&
        hasValidEscapes isName isBytes rest
  | _ :: rest => hasValidEscapes isName isBytes rest

end Whittle

------------------------------------------------------------
-- Pieces Of Templates
------------------------------------------------------------

namespace Whittle

/- A piece of a template, and what follows it. -/
structure TemplatePiece where
  text : Text
  isCutShort : Bool
  rest : Text
deriving Repr

/-
  Read a piece of a template up to a brace; `seen` is its
  reversed start.  At the top level a doubled brace stands
  for itself and cuts the piece short, and a closing brace
  alone is refused.
-/
def readPiece?
    (isRaw isTop : Bool)
    (seen : Text) : Text → Option TemplatePiece
  | [] => some ⟨seen.reverse, false, []⟩
  | c :: rest =>
      if c = '\\' && !isRaw then
        match rest with
        | 'N' :: '\x7b' :: inside =>
            readName? ('\x7b' :: 'N' :: '\\' :: seen) inside
        | 'N' :: _ => none
        | '\x7b' :: after => atBrace? ('\\' :: seen) '\x7b' after
        | '\x7d' :: after => atBrace? ('\\' :: seen) '\x7d' after
        | d :: after =>
            readPiece? isRaw isTop (d :: '\\' :: seen) after
        | [] => some ⟨(c :: seen).reverse, false, []⟩
      else if c = '\x7b' || c = '\x7d' then
        atBrace? seen c rest
      else
        readPiece? isRaw isTop (c :: seen) rest
where
  /- Read the name of a character up to its brace. -/
  readName?
      (seen : Text) : Text → Option TemplatePiece
    | [] => some ⟨seen.reverse, false, []⟩
    | c :: rest =>
        if c = '\x7d' then
          readPiece? isRaw isTop (c :: seen) rest
        else
          readName? (c :: seen) rest
  /- The end of a piece at a brace. -/
  atBrace?
      (seen : Text)
      (brace : Char)
      (after : Text) : Option TemplatePiece :=
    if isTop && after.head? = some brace then
      some ⟨(brace :: seen).reverse, true, after.drop 1⟩
    else if isTop && brace = '\x7d' then
      none
    else
      some ⟨seen.reverse, false, brace :: after⟩

end Whittle

------------------------------------------------------------
-- Fields Of Templates
------------------------------------------------------------

namespace Whittle

/-
  Where in a field reading is: inside a string with the given
  quote, perhaps a triple one, and below the given brackets.
-/
structure FieldState where
  string? : Option (Char × Bool)
  brackets : List Char
deriving Repr

/- The bracket that a closing one belongs to. -/
def openingOf
    (c : Char) : Char :=
  if c = ')' then '('
  else if c = ']' then '['
  else '\x7b'

/-
  Read the expression of a field, `seen` being its reversed
  start and `skip` the characters that belong to a quote
  already read.  It ends outside of brackets and strings at a
  mark that is not part of a comparison.  Backslashes and
  comments are refused.
-/
def readField?
    (skip : Nat)
    (state : FieldState)
    (seen : Text) : Text → Option (Text × Text)
  | [] => none
  | c :: rest =>
      match skip with
      | skip + 1 => readField? skip state (c :: seen) rest
      | 0 =>
          if c = '\\' then
            none
          else
            match state.string? with
            | some (quote, isTriple) =>
                if c ≠ quote then
                  readField? 0 state (c :: seen) rest
                else if !isTriple then
                  readField? 0 { state with string? := none }
                    (c :: seen) rest
                else if [quote, quote].isPrefixOf rest then
                  readField? 2 { state with string? := none }
                    (c :: seen) rest
                else
                  readField? 0 state (c :: seen) rest
            | none => outside? state seen c rest
where
  /- Go on outside of strings. -/
  outside?
      (state : FieldState)
      (seen : Text)
      (c : Char)
      (rest : Text) : Option (Text × Text) :=
    if c = '\'' || c = '"' then
      let isTriple := [c, c].isPrefixOf rest
      readField? (if isTriple then 2 else 0)
        { state with string? := some (c, isTriple) }
        (c :: seen) rest
    else if c = '[' || c = '\x7b' || c = '(' then
      if maxBracketsInField ≤ state.brackets.length then
        none
      else
        readField? 0
          { state with brackets := c :: state.brackets }
          (c :: seen) rest
    else if c = '#' then
      none
    else if state.brackets.isEmpty &&
        ['!', ':', '\x7d', '=', '>', '<'].contains c then
      if ['!', '=', '<', '>'].contains c &&
          rest.head? = some '=' then
        readField? 1 state (c :: seen) rest
      else if c = '<' || c = '>' then
        readField? 0 state (c :: seen) rest
      else
        some (seen.reverse, c :: rest)
    else if c = ']' || c = '\x7d' || c = ')' then
      match state.brackets with
      | [] => none
      | bracket :: outer =>
          if bracket = openingOf c then
            readField? 0 { state with brackets := outer }
              (c :: seen) rest
          else
            none
    else
      readField? 0 state (c :: seen) rest
  /- The number of brackets that may be open in a field. -/
  maxBracketsInField : Nat := 200

/- A blank that may stand around an expression. -/
def isFieldBlank
    (c : Char) : Bool :=
  c = ' ' || (0x09 ≤ c.toNat && c.toNat ≤ 0x0D)

/- A text without an equals sign and the blanks after it. -/
def dropEqual : Text → Text
  | '=' :: rest => rest.dropWhile isFieldBlank
  | t => t

/- What may follow an expression: `=` and a conversion. -/
def dropConversion?
    (t : Text) : Option Text :=
  match dropEqual t with
  | '!' :: c :: rest =>
      if c = 's' || c = 'r' || c = 'a' then some rest else none
  | '!' :: [] => none
  | rest => some rest

end Whittle

------------------------------------------------------------
-- Templates
------------------------------------------------------------

namespace Whittle

/- The pieces and fields of a template, and what follows. -/
structure Template where
  pieces : List Text
  fields : List Text
  rest : Text
deriving Repr

namespace Template

/- Put a piece in front of a template. -/
def cons
    (piece : Text)
    (t : Template) : Template :=
  { t with pieces := piece :: t.pieces }

/- A piece, a field with its format, and the template after. -/
def withField
    (piece field : Text)
    (format more : Template) : Template where
  pieces := piece :: format.pieces ++ more.pieces
  fields := field :: format.fields ++ more.fields
  rest := more.rest

end Template

/- The format after a colon, an empty one without a colon. -/
def formatAfter?
    (t : Text)
    (read : Text → Option Template) : Option Template :=
  match t with
  | ':' :: format => read format
  | _ => some ⟨[], [], t⟩

/- What follows the brace that ends a field. -/
def dropBrace? : Text → Option Text
  | '\x7d' :: rest => some rest
  | _ => none

/-
  Read a template that is `level` fields deep.  Below the top
  level it ends before a closing brace.  Fields may be nested
  once.  `fuel` bounds the number of pieces.
-/
def readTemplate?
    (isRaw : Bool) :
    (fuel level : Nat) → Text → Option Template
  | 0, _, _ => none
  | fuel + 1, level, t =>
      match readPiece? isRaw (level = 0) [] t with
      | none => none
      | some ⟨piece, true, rest⟩ =>
          (readTemplate? isRaw fuel level rest).map
            (Template.cons piece)
      | some ⟨piece, false, '\x7b' :: inside⟩ =>
          if 2 ≤ level then
            none
          else do
            let (field, after) ←
              readField? 0 ⟨none, []⟩ [] inside
            let format ←
              formatAfter? (← dropConversion? after)
                (readTemplate? isRaw fuel (level + 1))
            let next ← dropBrace? format.rest
            let more ← readTemplate? isRaw fuel level next
            return .withField piece field format more
      | some ⟨piece, false, rest⟩ => some ⟨[piece], [], rest⟩

namespace StringLiteral

/- The template of a formatted literal. -/
def template?
    (l : StringLiteral) : Option Template :=
  readTemplate? l.isRaw (l.body.length + 1) 0 l.body

/- A literal without fields has a valid inside. -/
def isValidPlain
    (isName : String → Bool)
    (l : StringLiteral) : Bool :=
  (!l.isBytes || l.body.all fun c => c.toNat < 0x80) &&
    (l.isRaw || hasValidEscapes isName l.isBytes l.body)

end StringLiteral

end Whittle
