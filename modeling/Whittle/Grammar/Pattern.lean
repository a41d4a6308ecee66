import Whittle.Grammar.Expression

/-
  The grammar of patterns.

  Key definitions include:
    * `literalPattern`
    * `closedPattern`
    * `alternatives`
    * `pattern`
    * `casePattern`

  A pattern inside of another one is read with a smaller
  bound on their depth.
-/

------------------------------------------------------------
-- Literals
------------------------------------------------------------

namespace Whittle

namespace Pattern

open Reader

/- A number, with whether it is imaginary. -/
def number : Reader (Term × Bool) := do
  match ← next? with
  | some (.number isImaginary) =>
      return (← build "Constant" (← take) [], isImaginary)
  | _ => failure

/- A number, perhaps with a minus before it. -/
def signedNumber : Reader (Term × Bool) := do
  let first ← here
  if ← acceptMark "-" then
    let (operand, isImaginary) ← number
    let t ← build "UnaryOp" first [("operand", operand)]
    return (t, isImaginary)
  else
    number

/- A number, perhaps a sum of a real and an imaginary one. -/
def complexNumber : Reader Term := do
  let first ← here
  let (left, isImaginary) ← signedNumber
  if ← acceptAnyMark ["+", "-"] then
    let (right, rightIsImaginary) ← number
    guard (!isImaginary && rightIsImaginary)
    build "BinOp" first [("left", left), ("right", right)]
  else
    return left

/- One of the words that stand for a constant. -/
def singleton : Reader Term := do
  match ← next? with
  | some (.keyword word) =>
      guard (["False", "None", "True"].contains word)
      build "Constant" (← take) []
  | _ => failure

/- What kind of literal comes next, if any. -/
inductive LiteralStart where
| numeric
| textual
| word

/- Look at the start of a literal. -/
def literalStart? : Reader (Option LiteralStart) := do
  match ← next? with
  | some (.number _) => return some .numeric
  | some (.operator "-") => return some .numeric
  | some (.literal _) => return some .textual
  | some (.keyword _) => return some .word
  | _ => return none

def literalPattern
    (e : Layer)
    (start : LiteralStart) : Reader Term := do
  let first ← here
  match start with
  | .numeric =>
      let value ← complexNumber
      build "MatchValue" first [("value", value)]
  | .textual =>
      let value ← e.strings
      build "MatchValue" first [("value", value)]
  | .word =>
      let _ ← singleton
      build "MatchSingleton" first []

end Pattern

end Whittle

------------------------------------------------------------
-- Names
------------------------------------------------------------

namespace Whittle

namespace Pattern

open Reader

/- More attributes after a name. -/
def attributesFrom
    (first : Place) : (bound : Nat) → Term → Reader Term
  | 0, t => return t
  | bound + 1, t => do
      if ← acceptMark "." then
        let text ← name
        let longer ← build "Attribute" first
          [("value", t), ("attr", .word text)]
        attributesFrom first bound longer
      else
        return t

/- A name with attributes. -/
def dottedName
    (bound : Nat) : Reader Term := do
  let first ← here
  let text ← name
  let t ← buildName "Load" first text
  attributesFrom first bound t

/- A name that takes what is matched. -/
def captureName : Reader String := do
  let text ← name
  guard (text ≠ "_")
  guard !(← isMark ".")
  guard !(← isMark "(")
  guard !(← isMark "=")
  return text

/- A name after a star, which may be the one for nothing. -/
def starName : Reader String := do
  if ← isNext (.name "_") then
    name
  else
    captureName

/- A starred pattern. -/
def starPattern : Reader Term := do
  let first ← here
  expectMark "*"
  let text ← starName
  build "MatchStar" first [("name", .word text)]

def mappingKey
    (e : Layer) : Reader Term := do
  match ← literalStart? with
  | some .numeric => complexNumber
  | some .textual => e.strings
  | some .word => singleton
  | none =>
      let t ← dottedName e.bound
      guard (t.label = "Attribute")
      return t

end Pattern

end Whittle

------------------------------------------------------------
-- Patterns
------------------------------------------------------------

namespace Whittle

namespace Pattern

open Reader

/- A pattern, perhaps a starred one. -/
def maybeStar
    (inner : Reader Term) : Reader Term := do
  if ← isMark "*" then
    starPattern
  else
    inner

/- A pattern without a star, where it stands alone. -/
def notStar
    (t : Term) : Reader Term := do
  guard (t.label ≠ "MatchStar")
  return t

/- The items of a sequence up to its closing bracket. -/
def sequenceItems
    (e : Layer)
    (inner : Reader Term)
    (closing : String) : Reader (List Term × Bool) := do
  if ← isMark closing then
    return ([], true)
  else
    separated (isOpen closing) (maybeStar inner) e.bound

/- A group or a sequence in parentheses. -/
def parenthesized
    (e : Layer)
    (inner : Reader Term) : Reader Term := do
  let first ← here
  expectMark "("
  let items ← sequenceItems e inner ")"
  expectMark ")"
  gather "MatchSequence" "patterns" first notStar items

/- A sequence in brackets. -/
def bracketed
    (e : Layer)
    (inner : Reader Term) : Reader Term := do
  let first ← here
  expectMark "["
  let (items, _) ← sequenceItems e inner "]"
  expectMark "]"
  build "MatchSequence" first [("patterns", .several items)]

/- The entries of a mapping, and the name for all others. -/
def mappingEntries
    (e : Layer)
    (inner : Reader Term) :
    (bound : Nat) →
      Reader (List (Term × Term) × Option String)
  | 0 => failure
  | bound + 1 => do
      if ← isMark "\x7d" then
        return ([], none)
      else if ← acceptMark "**" then
        let text ← captureName
        let _ ← acceptMark ","
        return ([], some text)
      else
        let key ← mappingKey e
        expectMark ":"
        let value ← inner
        if ← acceptMark "," then
          let (more, others) ← mappingEntries e inner bound
          return ((key, value) :: more, others)
        else
          return ([(key, value)], none)

/- A mapping pattern. -/
def braced
    (e : Layer)
    (inner : Reader Term) : Reader Term := do
  let first ← here
  expectMark "\x7b"
  let (entries, others) ←
    mappingEntries e inner (e.bound + 1)
  expectMark "\x7d"
  build "MatchMapping" first
    [("keys", .several (entries.map (·.1))),
      ("patterns", .several (entries.map (·.2))),
      ("rest", .optionalWord others)]

/- The arguments of a class pattern: first without a name. -/
def classArguments
    (inner : Reader Term) :
    (bound : Nat) → (afterName : Bool) →
      Reader (List Term × List Term)
  | 0, _ => failure
  | bound + 1, afterName => do
      if ← isMark ")" then
        return ([], [])
      else if ← Layer.startsKeyword then
        let _ ← name
        expectMark "="
        let t ← inner
        let (plain, keyed) ← after (.operator ",") ([], [])
          (classArguments inner bound true)
        return (plain, t :: keyed)
      else
        guard !afterName
        let t ← inner
        let (plain, keyed) ← after (.operator ",") ([], [])
          (classArguments inner bound false)
        return (t :: plain, keyed)

/- A class pattern whose class has been read. -/
def classPattern
    (e : Layer)
    (inner : Reader Term)
    (first : Place)
    (cls : Term) : Reader Term := do
  expectMark "("
  let (plain, keyed) ←
    classArguments inner (e.bound + 1) false
  expectMark ")"
  build "MatchClass" first
    [("cls", cls), ("patterns", .several plain),
      ("kwd_patterns", .several keyed)]

/- A pattern that starts with a name. -/
def namePattern
    (e : Layer)
    (inner : Reader Term) : Reader Term := do
  let first ← here
  let t ← dottedName e.bound
  if ← isMark "(" then
    classPattern e inner first t
  else
    guard !(← isMark "=")
    if t.label = "Attribute" then
      build "MatchValue" first [("value", t)]
    else
      build "MatchAs" first
        [("name", .optionalWord (t.word? "id"))]

/- A pattern without alternatives. -/
def closedPattern
    (e : Layer)
    (inner : Reader Term) : Reader Term := do
  match ← literalStart? with
  | some start => literalPattern e start
  | none =>
      match ← next? with
      | some (.name "_") => wildcard
      | some (.name _) => namePattern e inner
      | some (.operator "(") => parenthesized e inner
      | some (.operator "[") => bracketed e inner
      | some (.operator "\x7b") => braced e inner
      | _ => failure
where
  /- The pattern that matches all and takes nothing. -/
  wildcard : Reader Term := do
    build "MatchAs" (← take) []

/- An alternative after a bar. -/
def otherPattern
    (e : Layer)
    (inner : Reader Term) : Reader Term := do
  expectMark "|"
  closedPattern e inner

/- One pattern or several alternatives. -/
def alternatives
    (e : Layer)
    (inner : Reader Term) : Reader Term := do
  let first ← here
  let t ← closedPattern e inner
  match ← manyWhile (isMark "|") (otherPattern e inner) e.bound with
  | [] => return t
  | others =>
      build "MatchOr" first [("patterns", .several (t :: others))]

/- Alternatives, perhaps with a name for what is matched. -/
def named
    (e : Layer)
    (inner : Reader Term) : Reader Term := do
  let first ← here
  let t ← alternatives e inner
  if ← acceptWord "as" then
    let text ← captureName
    build "MatchAs" first
      [("pattern", t), ("name", .word text)]
  else
    return t

/- A pattern with a bound on its depth. -/
def pattern
    (e : Layer) : (depth : Nat) → Reader Term
  | 0 => failure
  | depth + 1 => named e (pattern e depth)

/- Another pattern of a case may follow. -/
def isOpenCase : Reader Bool := do
  return !(← isMark ":") && !(← isWord "if")

end Pattern

/-
  What follows `case`: a pattern, or several with commas that
  make a sequence.
-/
def casePattern
    (e : Layer) : Reader Term := do
  let first ← Reader.here
  let items ←
    Reader.separated Pattern.isOpenCase
      (Pattern.maybeStar (Pattern.pattern e e.bound)) e.bound
  Reader.gather "MatchSequence" "patterns" first
    Pattern.notStar items

end Whittle
