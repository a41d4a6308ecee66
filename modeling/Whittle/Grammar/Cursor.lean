import Whittle.Token.Basic

/-
  Reading tokens.

  Key definitions include:
    * `Cursor`
    * `Reader`
    * `Reader.accept`
    * `Reader.build`
    * `Reader.separated`

  A reader takes tokens from a cursor or fails.  Repetitions
  carry a bound on the number of their items.
-/

------------------------------------------------------------
-- Cursors
------------------------------------------------------------

namespace Whittle

/-
  The tokens that are left, and where the last token ended
  that was not a mark of the layout.
-/
structure Cursor where
  tokens : List Token
  behind : Place
deriving Repr, Inhabited

/- What takes tokens from a cursor or fails. -/
abbrev Reader :=
  StateT Cursor Option

namespace Reader

/- The next token, if there is one. -/
def next? : Reader (Option Lexeme) := do
  return (← get).tokens.head?.map (·.lexeme)

/- The next two tokens pass a test each. -/
def areNext
    (first second : Lexeme → Bool) : Reader Bool := do
  return startWith first second (← get).tokens
where
  /- The first two tokens of a list pass a test each. -/
  startWith
      (first second : Lexeme → Bool) : List Token → Bool
    | t :: u :: _ => first t.lexeme && second u.lexeme
    | _ => false

/-
  Where the next token starts, which has to be there and to be
  no mark of the layout.
-/
def here : Reader Place := do
  match (← get).tokens with
  | [] => failure
  | t :: _ =>
      guard !t.lexeme.isLayoutMark
      return t.extent.first

/- Take the next token. -/
def skip : Reader Unit := do
  let c ← get
  match c.tokens with
  | [] => failure
  | t :: rest =>
      set
        (Cursor.mk rest
          (if t.lexeme.isLayoutMark then
            c.behind
          else
            t.extent.last))

/- Take the next token and tell where it starts. -/
def take : Reader Place := do
  let first ← here
  skip
  return first

/- The next token is the given one. -/
def isNext
    (l : Lexeme) : Reader Bool := do
  return (← next?) = some l

/- Take the next token if it is the given one. -/
def accept
    (l : Lexeme) : Reader Bool := do
  if ← isNext l then
    skip
    return true
  else
    return false

/- Take the next token, which has to be the given one. -/
def expect
    (l : Lexeme) : Reader Unit := do
  guard (← isNext l)
  skip

end Reader

end Whittle

------------------------------------------------------------
-- Marks And Words
------------------------------------------------------------

namespace Whittle

namespace Reader

/- The next token is an operator. -/
def isMark
    (mark : String) : Reader Bool :=
  isNext (.operator mark)

/- The next token is a keyword. -/
def isWord
    (word : String) : Reader Bool :=
  isNext (.keyword word)

/- Take an operator if it is next. -/
def acceptMark
    (mark : String) : Reader Bool :=
  accept (.operator mark)

/- Take a keyword if it is next. -/
def acceptWord
    (word : String) : Reader Bool :=
  accept (.keyword word)

/- Take an operator. -/
def expectMark
    (mark : String) : Reader Unit :=
  expect (.operator mark)

/- Take a keyword. -/
def expectWord
    (word : String) : Reader Unit :=
  expect (.keyword word)

/- The next token is one of some operators. -/
def isAnyMark
    (marks : List String) : Reader Bool := do
  match ← next? with
  | some (.operator mark) => return marks.contains mark
  | _ => return false

/- Take the next token if it is one of some operators. -/
def acceptAnyMark
    (marks : List String) : Reader Bool := do
  if ← isAnyMark marks then
    let _ ← take
    return true
  else
    return false

/- Take a name. -/
def name : Reader String := do
  match ← next? with
  | some (.name text) =>
      let _ ← take
      return text
  | _ => failure

end Reader

end Whittle

------------------------------------------------------------
-- Terms
------------------------------------------------------------

namespace Whittle

namespace Reader

/- The term from a place up to the last token taken. -/
def build
    (label : String)
    (first : Place)
    (parts : List (String × Term)) : Reader Term := do
  return .node label (some ⟨first, (← get).behind⟩) parts

/- A term without an extent, which groups other terms. -/
def group
    (label : String)
    (parts : List (String × Term)) : Term :=
  .node label none parts

/- A name as a term, used as the context says. -/
def buildName
    (context : String)
    (first : Place)
    (text : String) : Reader Term :=
  build "Name" first
    [("id", .word text), ("ctx", group context [])]

end Reader

namespace Reader

variable {α : Type}

/- What stands behind a token, or else what is missing. -/
def after
    (l : Lexeme)
    (missing : α)
    (item : Reader α) : Reader α := do
  if ← accept l then
    item
  else
    return missing

/- What should be there, or else what is missing. -/
def when
    (isThere : Bool)
    (missing : α)
    (item : Reader α) : Reader α := do
  if isThere then
    item
  else
    return missing

/- A term behind an operator, blank without it. -/
def afterMark
    (mark : String)
    (item : Reader Term) : Reader Term :=
  after (.operator mark) .blank item

/- A term behind a keyword, blank without it. -/
def afterWord
    (word : String)
    (item : Reader Term) : Reader Term :=
  after (.keyword word) .blank item

end Reader

/- A part that may be missing. -/
def Term.optional : Option Term → Term
  | some t => t
  | none => .blank

/- A word that may be missing. -/
def Term.optionalWord : Option String → Term
  | some text => .word text
  | none => .blank

end Whittle

------------------------------------------------------------
-- Repetition
------------------------------------------------------------

namespace Whittle

namespace Reader

variable {α : Type}

/- Read items, at most `bound`, as long as a test holds. -/
def manyWhile
    (test : Reader Bool)
    (item : Reader α) : (bound : Nat) → Reader (List α)
  | 0 => return []
  | bound + 1 => do
      if ← test then
        let first ← item
        return first :: (← manyWhile test item bound)
      else
        return []

/-
  Read more items with a comma before each.  A comma that no
  item follows, as `more` tells, ends the list.
-/
def afterCommas
    (more : Reader Bool)
    (item : Reader α) : (bound : Nat) → Reader (List α × Bool)
  | 0 => return ([], false)
  | bound + 1 => do
      if ← acceptMark "," then
        if ← more then
          let first ← item
          let (rest, _) ← afterCommas more item bound
          return (first :: rest, true)
        else
          return ([], true)
      else
        return ([], false)

/-
  Read one or more items with commas between them and perhaps
  one at the end.  The result says whether there is a comma.
-/
def separated
    (more : Reader Bool)
    (item : Reader α)
    (bound : Nat) : Reader (List α × Bool) := do
  let first ← item
  let (rest, hasComma) ← afterCommas more item bound
  return (first :: rest, hasComma)

/-
  One item without a comma, as `one` says, or the term that
  the items make together.
-/
def gather
    (label part : String)
    (first : Place)
    (one : Term → Reader Term) :
    List Term × Bool → Reader Term
  | ([t], false) => one t
  | (items, _) => build label first [(part, .several items)]

/- The next token does not close a list. -/
def isOpen
    (closing : String) : Reader Bool := do
  return !(← isMark closing)

end Reader

end Whittle
