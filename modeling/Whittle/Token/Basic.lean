import Whittle.Term.Basic
import Whittle.Text.Charset

/-
  Tokens of the Python language, version 3.11.

  Key definitions include:
    * `StringLiteral`
    * `Lexeme`
    * `Token`
    * `keywords`
    * `operators`
    * `Place.past`
-/

------------------------------------------------------------
-- Places Of Tokens
------------------------------------------------------------

namespace Whittle

namespace Place

/- The place after one more character. -/
def after
    (p : Place)
    (c : Char) : Place :=
  if c = '\n' then
    ⟨p.line + 1, 0⟩
  else
    ⟨p.line, p.bytes + c.utf8Size⟩

/- The place after some more text. -/
def past
    (p : Place)
    (t : Text) : Place :=
  t.foldl after p

end Place

end Whittle

------------------------------------------------------------
-- Tokens
------------------------------------------------------------

namespace Whittle

/- A string literal: what its letters say, and its inside. -/
structure StringLiteral where
  isRaw : Bool
  isBytes : Bool
  isFormatted : Bool
  body : Text
deriving DecidableEq, Repr, Inhabited

/- What a token is. -/
inductive Lexeme where
| keyword (word : String)
| name (text : String)
| number (isImaginary : Bool)
| literal (value : StringLiteral)
| operator (mark : String)
| lineEnd
| indent
| dedent
deriving DecidableEq, Repr, Inhabited

namespace Lexeme

/- Tokens that only show the layout of lines. -/
def isLayoutMark : Lexeme → Bool
  | .lineEnd => true
  | .indent => true
  | .dedent => true
  | _ => false

end Lexeme

/- A token with the piece of text it stands for. -/
structure Token where
  lexeme : Lexeme
  extent : Extent
deriving DecidableEq, Repr, Inhabited

end Whittle

------------------------------------------------------------
-- Words And Marks
------------------------------------------------------------

namespace Whittle

/- Words that are no names. -/
def keywords : List String :=
  [
    "False", "None", "True", "and", "as", "assert", "async",
    "await", "break", "class", "continue", "def", "del",
    "elif", "else", "except", "finally", "for", "from",
    "global", "if", "import", "in", "is", "lambda",
    "nonlocal", "not", "or", "pass", "raise", "return", "try",
    "while", "with", "yield"
  ]

/- Operators and delimiters, longer ones first. -/
def operators : List String :=
  [
    "**=", "//=", "<<=", ">>=", "...", "!=", "%=", "&=", "**",
    "*=", "+=", "-=", "->", "//", "/=", ":=", "<<", "<=",
    "==", ">=", ">>", "@=", "^=", "|=", "(", ")", "[", "]",
    "\x7b", "\x7d", "+", "-", "*", "/", "%", "@", "&", "|", "^",
    "~", "<", ">", "=", ".", ",", ":", ";"
  ]

end Whittle
