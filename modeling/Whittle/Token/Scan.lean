import Whittle.Text.Identifier
import Whittle.Token.Basic
import Whittle.Token.Number

/-
  From text to tokens.

  Key definitions include:
    * `Indentation`
    * `measureIndent?`
    * `readString?`
    * `Scanner`
    * `readLexeme?`
    * `Scan`
    * `Token.ofText?`

  Line ends inside brackets and after a backslash do not
  count.  Outside of brackets the indentation of a line says
  how many blocks start or end before it.
-/

------------------------------------------------------------
-- Indentation
------------------------------------------------------------

namespace Whittle

/-
  The indentation of a line, once with tab stops at every
  eighth column and once with tabs of one column.  Blocks are
  consistent only if both measures agree on their order.
-/
structure Indentation where
  wide : Nat
  narrow : Nat
deriving DecidableEq, Repr, Inhabited

/- A line after its indentation. -/
structure IndentedLine where
  indentation : Indentation
  place : Place
  rest : Text
deriving Repr

/-
  Measure the indentation at the start of a line.  A
  backslash joins the next line; the indentation before the
  first backslash, if there is any, is what counts.
-/
def measureIndent?
    (joined : Nat)
    (seen : Indentation)
    (place : Place) : Text → Option IndentedLine
  | ' ' :: rest =>
      measureIndent? joined ⟨seen.wide + 1, seen.narrow + 1⟩
        (place.after ' ') rest
  | '\t' :: rest =>
      measureIndent? joined
        ⟨(seen.wide / 8 + 1) * 8, seen.narrow + 1⟩
        (place.after '\t') rest
  | '\x0c' :: rest =>
      measureIndent? joined ⟨0, 0⟩ (place.after '\x0c') rest
  | '\\' :: '\n' :: rest =>
      if rest.isEmpty then
        none
      else
        measureIndent?
          (if joined = 0 then seen.wide else joined)
          seen (place.after '\n') rest
  | '\\' :: _ => none
  | rest =>
      if joined = 0 then
        some ⟨seen, place, rest⟩
      else
        some ⟨⟨joined, joined⟩, place, rest⟩

end Whittle

------------------------------------------------------------
-- String Literals
------------------------------------------------------------

namespace Whittle

/-
  The length of the inside of a literal that ends with the
  given quote, written once or three times.
-/
def insideLength?
    (quote : Char)
    (isTriple : Bool)
    (length : Nat) : Text → Option Nat
  | [] => none
  | ['\\'] => none
  | '\\' :: _ :: rest =>
      insideLength? quote isTriple (length + 2) rest
  | c :: rest =>
      if c = quote &&
          (!isTriple || [quote, quote].isPrefixOf rest) then
        some length
      else if c = '\n' && !isTriple then
        none
      else
        insideLength? quote isTriple (length + 1) rest

/- The letters before a literal, and what they say of it. -/
def literalOf?
    (letters : Text) : Option StringLiteral :=
  let lower := String.ofList (letters.map Char.toLower)
  if ["", "b", "u", "r", "f", "br", "rb", "fr", "rf"].contains
      lower then
    some
      { isRaw := lower.contains 'r'
        isBytes := lower.contains 'b'
        isFormatted := lower.contains 'f'
        body := [] }
  else
    none

/- The literal at a quote, with its length. -/
def readString?
    (kind : StringLiteral)
    (t : Text) : Option (StringLiteral × Nat) :=
  match t with
  | [] => none
  | quote :: rest =>
      let isTriple := [quote, quote].isPrefixOf rest
      let width := if isTriple then 3 else 1
      let inside := rest.drop (width - 1)
      (insideLength? quote isTriple 0 inside).map fun n =>
        ({ kind with body := inside.take n }, n + 2 * width)

end Whittle

------------------------------------------------------------
-- Scanning
------------------------------------------------------------

namespace Whittle

/-
  What has been read: where scanning is, the indentations of
  the open blocks, the open brackets, and the tokens so far.
  Lists have the innermost or last item first.
-/
structure Scanner where
  place : Place
  blocks : List Indentation
  brackets : List Char
  tokens : List Token
deriving Repr

/- The number of blocks that may be open, the file included. -/
def maxBlocks : Nat := 100

namespace Scanner

/- The start of every text. -/
def start : Scanner :=
  ⟨⟨1, 0⟩, [⟨0, 0⟩], [], []⟩

/- Append a token that ends at a later place. -/
def push
    (s : Scanner)
    (lexeme : Lexeme)
    (stop : Place) : Scanner :=
  { s with
    place := stop
    tokens := ⟨lexeme, ⟨s.place, stop⟩⟩ :: s.tokens }

/- Append a token for some text. -/
def pushText
    (s : Scanner)
    (lexeme : Lexeme)
    (t : Text) : Scanner :=
  s.push lexeme (s.place.past t)

/- Move over a character that belongs to no token. -/
def skip
    (s : Scanner)
    (c : Char) : Scanner :=
  { s with place := s.place.after c }

/- Close the blocks that are deeper than an indentation. -/
def closeBlocks
    (s : Scanner)
    (wide : Nat) : List Indentation → Scanner
  | [] => s
  | [base] => { s with blocks := [base] }
  | block :: outer =>
      if wide < block.wide then
        closeBlocks (s.push .dedent s.place) wide outer
      else
        { s with blocks := block :: outer }

/- Open or close blocks before a line. -/
def startLine?
    (s : Scanner)
    (new : Indentation) : Option Scanner :=
  let current := s.blocks.headD ⟨0, 0⟩
  if new.wide = current.wide then
    if new.narrow = current.narrow then some s else none
  else if current.wide < new.wide then
    if maxBlocks ≤ s.blocks.length ||
        new.narrow ≤ current.narrow then
      none
    else
      some
        { s.push .indent s.place with
          blocks := new :: s.blocks }
  else
    let closed := s.closeBlocks new.wide s.blocks
    if closed.blocks.headD ⟨0, 0⟩ = new then
      some closed
    else
      none

/- All tokens of a text that has been read to its end. -/
def finish
    (s : Scanner) : List Token :=
  (s.closeBlocks 0 s.blocks).tokens.reverse

end Scanner

end Whittle

------------------------------------------------------------
-- Words
------------------------------------------------------------

namespace Whittle

/- A text of name characters is a name. -/
def isName
    (t : Text) : Bool :=
  match t with
  | [] => false
  | c :: rest =>
      t.all (fun c => c.toNat < 0x80) ||
        (isIdentifierStart c && rest.all isIdentifierRest)

/- The token of a word. -/
def wordLexeme?
    (t : Text) : Option Lexeme :=
  let word := String.ofList t
  if keywords.contains word then
    some (.keyword word)
  else if isName t then
    some (.name word)
  else
    none

/-
  The token of a word, or of the literal whose letters it is,
  and its length.  `rest` is the text behind the word.
-/
def wordToken?
    (word rest : Text) : Option (Lexeme × Nat) :=
  let isQuote := rest.head?.any fun c => c = '"' || c = '\''
  match if isQuote then literalOf? word else none with
  | some kind =>
      (readString? kind rest).map fun found =>
        (.literal found.1, word.length + found.2)
  | none => (wordLexeme? word).map (·, word.length)

/- Read the word or literal at the start of a text. -/
def readWord?
    (t : Text) : Option (Lexeme × Nat) :=
  wordToken? (t.takeWhile isNameChar)
    (t.dropWhile isNameChar)

/- Read the operator at the start of a text. -/
def readOperator?
    (t : Text) : Option (Lexeme × Nat) :=
  match operators.find? (·.toList.isPrefixOf t) with
  | none => none
  | some mark =>
      if mark = "<" && (t.drop 1).head? = some '>' then
        none
      else
        some (.operator mark, mark.length)

/-
  Read the number at the start of a text.  It ends before the
  line does.
-/
def readNumber?
    (t : Text) : Option (Lexeme × Nat) :=
  (Numeral.numberLength? (t.takeWhile (· ≠ '\n'))).map
    fun found => (.number found.2, found.1)

/- Read the token at the start of a text, with its length. -/
def readLexeme?
    (t : Text) : Option (Lexeme × Nat) :=
  match t with
  | [] => none
  | c :: rest =>
      if c.isDigit ||
          (c = '.' && rest.head?.any Char.isDigit) then
        readNumber? t
      else if isNameChar c || c = '"' || c = '\'' then
        readWord? t
      else
        readOperator? t

end Whittle

------------------------------------------------------------
-- Brackets
------------------------------------------------------------

namespace Whittle

/- The number of brackets that may be open. -/
def maxBrackets : Nat := 200

/- The bracket that closes another one. -/
def closingOf
    (bracket : Char) : Char :=
  if bracket = '(' then ')'
  else if bracket = '[' then ']'
  else '\x7d'

/- The open brackets after one more character. -/
def bracketsAfter?
    (brackets : List Char)
    (c : Char) : Option (List Char) :=
  if c = '(' || c = '[' || c = '\x7b' then
    if maxBrackets ≤ brackets.length then
      none
    else
      some (c :: brackets)
  else if c = ')' || c = ']' || c = '\x7d' then
    match brackets with
    | [] => none
    | bracket :: outer =>
        if c = closingOf bracket then some outer else none
  else
    some brackets

namespace Scanner

/- Append a token for some text, keeping track of brackets. -/
def pushLexeme?
    (s : Scanner)
    (lexeme : Lexeme)
    (t : Text) : Option Scanner :=
  let pushed := s.pushText lexeme t
  match lexeme, t with
  | .operator _, [c] =>
      (bracketsAfter? s.brackets c).map fun brackets =>
        { pushed with brackets := brackets }
  | _, _ => some pushed

end Scanner

end Whittle

------------------------------------------------------------
-- Steps
------------------------------------------------------------

namespace Whittle

/- A blank inside a line of code. -/
def isCodeBlank
    (c : Char) : Bool :=
  c = ' ' || c = '\t' || c = '\x0c'

/- Scanning under way: at the start of a line or inside one. -/
structure Scan where
  scanner : Scanner
  atLineStart : Bool
  rest : Text
deriving Repr

namespace Scan

/-
  Start a line.  Outside of brackets its indentation is looked
  at first, unless nothing but a comment follows.
-/
def startLine?
    (s : Scanner)
    (t : Text) : Option Scan :=
  match measureIndent? 0 ⟨0, 0⟩ s.place t with
  | none => none
  | some line =>
      let c := line.rest.headD '\n'
      let here := { s with place := line.place }
      if c = '#' || c = '\n' then
        some
          ⟨here.skip '\n', true,
            (line.rest.dropWhile (· ≠ '\n')).drop 1⟩
      else
        (here.startLine? line.indentation).map
          (⟨·, false, line.rest⟩)

/- Go on inside a line with its next character. -/
def goOn?
    (s : Scanner)
    (c : Char)
    (rest : Text) : Option Scan :=
  if isCodeBlank c then
    some ⟨s.skip c, false, rest⟩
  else if c = '#' then
    some ⟨s, false, rest.dropWhile (· ≠ '\n')⟩
  else if c = '\n' then
    if s.brackets.isEmpty then
      some ⟨s.pushText .lineEnd [c], true, rest⟩
    else
      some ⟨s.skip c, false, rest⟩
  else if c = '\\' then
    match rest with
    | '\n' :: next :: more =>
        some ⟨s.skip '\n', false, next :: more⟩
    | _ => none
  else
    match readLexeme? (c :: rest) with
    | none => none
    | some (lexeme, n) =>
        (s.pushLexeme? lexeme ((c :: rest).take n)).map
          (⟨·, false, (c :: rest).drop n⟩)

/- One step of scanning, none at the end of the text. -/
def step?
    (s : Scan) : Option Scan :=
  match s.rest with
  | [] => none
  | c :: rest =>
      if s.atLineStart then
        startLine? s.scanner (c :: rest)
      else
        goOn? s.scanner c rest

/- A text has been scanned to its end. -/
def isDone
    (s : Scan) : Bool :=
  s.atLineStart && s.rest.isEmpty

/- Scan the rest of a text in at most `fuel` steps. -/
def tokens? : (fuel : Nat) → Scan → Option (List Token)
  | 0, _ => none
  | fuel + 1, s =>
      if s.isDone then
        some s.scanner.finish
      else
        match s.step? with
        | none => none
        | some next => tokens? fuel next

end Scan

end Whittle

------------------------------------------------------------
-- Whole Texts
------------------------------------------------------------

namespace Whittle

/-
  A text with newlines as line ends, the last line included.
  Another newline goes after a carriage return and newline at
  the very end.
-/
def completeLines
    (t : Text) : Text :=
  let unified := t.unifyLineEnds
  let endsWithPair := ['\n', '\r'].isPrefixOf t.reverse
  if unified.getLast? = some '\n' && !endsWithPair then
    unified
  else
    unified ++ ['\n']

/- The tokens of a text, if it has no broken ones. -/
def Token.ofText?
    (t : Text) : Option (List Token) :=
  if t.contains '\x00' then
    none
  else
    let complete := completeLines t
    Scan.tokens? (2 * complete.length + 2)
      ⟨.start, true, complete⟩

end Whittle
