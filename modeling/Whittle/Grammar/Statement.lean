import Whittle.Grammar.Pattern

/-
  The grammar of statements.

  Key definitions include:
    * `simpleStatement`
    * `simpleLine`
    * `statements`
    * `readBlock`
    * `Term.ofTokens?`

  A block inside of a statement is read with a smaller bound
  on the depth of blocks.
-/

------------------------------------------------------------
-- Assignments
------------------------------------------------------------

namespace Whittle

namespace Statement

open Reader

/- A value that is assigned: a yield or expressions. -/
def assignedValue
    (e : Layer) : Reader Term := do
  if ← isWord "yield" then
    e.yieldExpression
  else
    e.read .starExpressions

/- The operators that change a target in place. -/
def augmentingMarks : List String :=
  [
    "+=", "-=", "*=", "/=", "//=", "%=", "@=", "&=", "|=",
    "^=", "<<=", ">>=", "**="
  ]

/-
  The targets and the value of an assignment whose first
  target has been read as an expression.
-/
def assignedFrom
    (e : Layer) :
    (bound : Nat) → Term → Reader (List Term × Term)
  | 0, _ => failure
  | bound + 1, t => do
      if ← acceptMark "=" then
        let target ← asTarget "Store" t
        if ← isWord "yield" then
          return ([target], ← e.yieldExpression)
        else
          let next ← e.read .starExpressions
          let (more, value) ← assignedFrom e bound next
          return (target :: more, value)
      else
        return ([], t)

/- An annotation after a target, and perhaps a value. -/
def annotated
    (e : Layer)
    (first : Place)
    (t : Term) : Reader Term := do
  guard t.isSingleTarget
  let target ← asTarget "Store" t
  expectMark ":"
  let annotation ← e.read .expression
  let value ← afterMark "=" (assignedValue e)
  build "AnnAssign" first
    [("target", target), ("annotation", annotation),
      ("value", value)]

/- An expression, or an assignment that starts with one. -/
def expressionOrAssignment
    (e : Layer) : Reader Term := do
  let first ← here
  let t ← e.read .starExpressions
  if ← isMark ":" then
    annotated e first t
  else if ← isMark "=" then
    let (targets, value) ← assignedFrom e (e.bound + 1) t
    build "Assign" first
      [("targets", .several targets), ("value", value)]
  else if ← acceptAnyMark augmentingMarks then
    guard t.isSingleTarget
    let target ← asTarget "Store" t
    let value ← assignedValue e
    build "AugAssign" first
      [("target", target), ("value", value)]
  else
    build "Expr" first [("value", t)]

end Statement

end Whittle

------------------------------------------------------------
-- Imports
------------------------------------------------------------

namespace Whittle

namespace Statement

open Reader

/- More components of a dotted name. -/
def componentsFrom : (bound : Nat) → Reader String
  | 0 => return ""
  | bound + 1 => do
      if ← acceptMark "." then
        let text ← name
        return "." ++ text ++ (← componentsFrom bound)
      else
        return ""

/- A name with dots. -/
def dottedText
    (bound : Nat) : Reader String := do
  let text ← name
  return text ++ (← componentsFrom bound)

/- A name for an imported thing, and perhaps a new one. -/
def importItem
    (thing : Reader String) : Reader Term := do
  let first ← here
  let text ← thing
  let new ← afterWord "as" (Term.word <$> name)
  build "alias" first [("name", .word text), ("asname", new)]

def importModules
    (e : Layer) : Reader Term := do
  let first ← here
  expectWord "import"
  let (names, _) ←
    separated (return true) (importItem (dottedText e.bound)) e.bound
  build "Import" first [("names", .several names)]

/- The dots before the name of a module. -/
def leadingDots : (bound : Nat) → Reader Bool
  | 0 => return false
  | bound + 1 => do
      if ← acceptAnyMark [".", "..."] then
        let _ ← leadingDots bound
        return true
      else
        return false

/- Names imported from a module. -/
def importedNames
    (e : Layer) : Reader (List Term) := do
  if ← isMark "*" then
    return [← build "alias" (← take) [("name", .word "*")]]
  else if ← acceptMark "(" then
    let (names, _) ←
      separated (isOpen ")") (importItem name) e.bound
    expectMark ")"
    return names
  else
    return (← separated (return true) (importItem name) e.bound).1

/- Names to import from a module. -/
def importNames
    (e : Layer) : Reader Term := do
  let first ← here
  expectWord "from"
  let isRelative ← leadingDots e.bound
  let isNamed := !(← isWord "import")
  guard (isRelative || isNamed)
  let module ←
    when isNamed .blank (Term.word <$> dottedText e.bound)
  expectWord "import"
  let names ← importedNames e
  build "ImportFrom" first
    [("module", module), ("names", .several names)]

end Statement

end Whittle

------------------------------------------------------------
-- Simple Statements
------------------------------------------------------------

namespace Whittle

namespace Statement

open Reader

/- A statement that is a single word. -/
def wordStatement
    (label : String) : Reader Term := do
  let first ← take
  build label first []

/- Names that are declared. -/
def declaration
    (e : Layer)
    (label : String) : Reader Term := do
  let first ← take
  let (names, _) ← separated (return true) name e.bound
  build label first [("names", .several (names.map .word))]

/- Expressions, if one may start here. -/
def optionalExpressions
    (e : Layer) : Reader Term := do
  if ← Layer.mayStart then
    e.read .starExpressions
  else
    return .blank

/- A return, perhaps with a value. -/
def returnStatement
    (e : Layer) : Reader Term := do
  let first ← take
  let value ← optionalExpressions e
  build "Return" first [("value", value)]

/- A raise, perhaps with an exception and its cause. -/
def raiseStatement
    (e : Layer) : Reader Term := do
  let first ← take
  if ← Layer.mayStart then
    let value ← e.read .expression
    let cause ← afterWord "from" (e.read .expression)
    build "Raise" first [("exc", value), ("cause", cause)]
  else
    build "Raise" first []

/- An assertion, perhaps with a message. -/
def assertStatement
    (e : Layer) : Reader Term := do
  let first ← take
  let test ← e.read .expression
  let message ← afterMark "," (e.read .expression)
  build "Assert" first [("test", test), ("msg", message)]

def deletedTarget
    (e : Layer) : Reader Term := do
  asTarget "Del" (← e.read .primary)

/- A deletion of targets. -/
def deleteStatement
    (e : Layer) : Reader Term := do
  let first ← take
  let (targets, _) ←
    separated Layer.mayStart (deletedTarget e) e.bound
  build "Delete" first [("targets", .several targets)]

/- A statement that fits on a part of a line. -/
def simpleStatement
    (e : Layer) : Reader Term := do
  match ← next? with
  | some (.keyword "return") => returnStatement e
  | some (.keyword "import") => importModules e
  | some (.keyword "from") => importNames e
  | some (.keyword "raise") => raiseStatement e
  | some (.keyword "pass") => wordStatement "Pass"
  | some (.keyword "del") => deleteStatement e
  | some (.keyword "assert") => assertStatement e
  | some (.keyword "break") => wordStatement "Break"
  | some (.keyword "continue") => wordStatement "Continue"
  | some (.keyword "global") => declaration e "Global"
  | some (.keyword "nonlocal") => declaration e "Nonlocal"
  | some (.keyword "yield") =>
      let first ← here
      let value ← e.yieldExpression
      build "Expr" first [("value", value)]
  | _ => expressionOrAssignment e

/- The statements of a line with semicolons between them. -/
def simpleLine
    (e : Layer) : (bound : Nat) → Reader (List Term)
  | 0 => failure
  | bound + 1 => do
      let t ← simpleStatement e
      if ← acceptMark ";" then
        if ← accept .lineEnd then
          return [t]
        else
          return t :: (← simpleLine e bound)
      else
        expect .lineEnd
        return [t]

end Statement

end Whittle

------------------------------------------------------------
-- Branches And Loops
------------------------------------------------------------

namespace Whittle

/- Readers for the expressions and the block of a statement. -/
structure BlockLayer where
  expressions : Layer
  block : Reader (List Term)

namespace Statement

open Reader

/- A colon and a block. -/
def body
    (b : BlockLayer) : Reader Term := do
  expectMark ":"
  return .several (← b.block)

/- A block after a word, if the word is next. -/
def optionalBody
    (b : BlockLayer)
    (word : String) : Reader Term := do
  if ← acceptWord word then
    body b
  else
    return .several []

/- What follows a branch: another one, or a block. -/
def otherBranch
    (b : BlockLayer)
    (branch : Reader Term) : Reader Term := do
  if ← isWord "elif" then
    let t ← branch
    return .several [t]
  else
    optionalBody b "else"

/- A branch, the word before it being next. -/
def ifFrom
    (b : BlockLayer) : (bound : Nat) → Reader Term
  | 0 => failure
  | bound + 1 => do
      let first ← take
      let test ← b.expressions.read .named
      let taken ← body b
      let other ← otherBranch b (ifFrom b bound)
      build "If" first
        [("test", test), ("body", taken), ("orelse", other)]

/- A loop with a test. -/
def whileStatement
    (b : BlockLayer) : Reader Term := do
  let first ← here
  expectWord "while"
  let test ← b.expressions.read .named
  let repeated ← body b
  let other ← optionalBody b "else"
  build "While" first
    [("test", test), ("body", repeated), ("orelse", other)]

/- A loop over a source of items. -/
def forStatement
    (b : BlockLayer)
    (first : Place)
    (label : String) : Reader Term := do
  expectWord "for"
  let target ← b.expressions.starTargets
  expectWord "in"
  let source ← b.expressions.read .starExpressions
  let repeated ← body b
  let other ← optionalBody b "else"
  build label first
    [("target", target), ("iter", source), ("body", repeated),
      ("orelse", other)]

end Statement

end Whittle

------------------------------------------------------------
-- Contexts And Handlers
------------------------------------------------------------

namespace Whittle

namespace Statement

open Reader

/- An expression that is entered, and perhaps a target. -/
def withItem
    (e : Layer) : Reader Term := do
  let context ← e.read .expression
  let target ← afterWord "as" e.starTarget
  return group "withitem"
    [("context_expr", context), ("optional_vars", target)]

/- Items in parentheses up to the colon. -/
def parenthesizedItems
    (e : Layer) : Reader (List Term) := do
  expectMark "("
  let (items, _) ← separated (isOpen ")") (withItem e) e.bound
  expectMark ")"
  guard (← isMark ":")
  return items

/- Items without parentheses of their own up to the colon. -/
def plainItems
    (e : Layer) : Reader (List Term) := do
  let (items, _) ← separated (return true) (withItem e) e.bound
  guard (← isMark ":")
  return items

/- A block with entered contexts. -/
def withStatement
    (b : BlockLayer)
    (first : Place)
    (label : String) : Reader Term := do
  expectWord "with"
  let items ←
    parenthesizedItems b.expressions <|>
      plainItems b.expressions
  let inside ← body b
  build label first
    [("items", .several items), ("body", inside)]

/- What a handler handles, and the name for it. -/
def handled
    (e : Layer)
    (isGroup : Bool) : Reader (Term × Term) := do
  if (← isMark ":") && !isGroup then
    return (.blank, .blank)
  else
    let kind ← e.read .expression
    let text ← afterWord "as" (Term.word <$> name)
    return (kind, text)

/- A handler, which may handle groups. -/
def handler
    (b : BlockLayer) : Reader (Term × Bool) := do
  let first ← here
  expectWord "except"
  let isGroup ← acceptMark "*"
  let (kind, text) ← handled b.expressions isGroup
  let inside ← body b
  let t ← build "ExceptHandler" first
    [("type", kind), ("name", text), ("body", inside)]
  return (t, isGroup)

/- A block with handlers or a final block. -/
def tryStatement
    (b : BlockLayer) : Reader Term := do
  let first ← here
  expectWord "try"
  let inside ← body b
  let handlers ←
    manyWhile (isWord "except") (handler b)
      b.expressions.bound
  let isGroup := handlers.any (·.2)
  guard (handlers.all fun h => h.2 = isGroup)
  let other ←
    when (!handlers.isEmpty) (.several []) (optionalBody b "else")
  guard (!handlers.isEmpty || (← isWord "finally"))
  let final ← optionalBody b "finally"
  build (if isGroup then "TryStar" else "Try") first
    [("body", inside), ("handlers", .several (handlers.map (·.1))),
      ("orelse", other), ("finalbody", final)]

end Statement

end Whittle

------------------------------------------------------------
-- Definitions
------------------------------------------------------------

namespace Whittle

namespace Statement

open Reader

def functionDefinition
    (b : BlockLayer)
    (decorators : List Term)
    (first : Place)
    (label : String) : Reader Term := do
  expectWord "def"
  let text ← name
  expectMark "("
  let parameters ← b.expressions.parameters true ")"
  expectMark ")"
  let result ← afterMark "->" (b.expressions.read .expression)
  let inside ← body b
  build label first
    [("name", .word text), ("args", parameters),
      ("body", inside), ("decorator_list", .several decorators),
      ("returns", result)]

def classDefinition
    (b : BlockLayer)
    (decorators : List Term) : Reader Term := do
  let first ← here
  expectWord "class"
  let text ← name
  let found ←
    after (.operator "(") ⟨[], []⟩ b.expressions.arguments
  let inside ← body b
  build "ClassDef" first
    [("name", .word text),
      ("bases", .several found.positional),
      ("keywords", .several found.keywords),
      ("body", inside), ("decorator_list", .several decorators)]

/- A decorator on a line of its own. -/
def decorator
    (e : Layer) : Reader Term := do
  expectMark "@"
  let t ← e.read .named
  expect .lineEnd
  return t

/- What may follow decorators. -/
def definition
    (b : BlockLayer)
    (decorators : List Term) : Reader Term := do
  let first ← here
  if ← isWord "class" then
    classDefinition b decorators
  else if ← acceptWord "async" then
    functionDefinition b decorators first "AsyncFunctionDef"
  else
    functionDefinition b decorators first "FunctionDef"

/- A definition with decorators. -/
def decorated
    (b : BlockLayer) : Reader Term := do
  let decorators ←
    manyWhile (isMark "@") (decorator b.expressions)
      b.expressions.bound
  definition b decorators

/- A statement that starts with `async`. -/
def asyncStatement
    (b : BlockLayer) : Reader Term := do
  let first ← here
  expectWord "async"
  if ← isWord "def" then
    functionDefinition b [] first "AsyncFunctionDef"
  else if ← isWord "with" then
    withStatement b first "AsyncWith"
  else
    forStatement b first "AsyncFor"

end Statement

end Whittle

------------------------------------------------------------
-- Matching
------------------------------------------------------------

namespace Whittle

namespace Statement

open Reader

/- What is matched: an expression or a tuple. -/
def subject
    (e : Layer) : Reader Term := do
  let first ← here
  let items ←
    separated Layer.mayStart (e.read .starNamed) e.bound
  let one (t : Term) : Reader Term := do
    guard (t.label ≠ "Starred")
    return t
  gather "Tuple" "elts" first one items

/- One case of a match. -/
def caseBlock
    (b : BlockLayer) : Reader Term := do
  expect (.name "case")
  let t ← casePattern b.expressions
  let condition ← afterWord "if" (b.expressions.read .named)
  let inside ← body b
  return group "match_case"
    [("pattern", t), ("guard", condition), ("body", inside)]

/- The first line of a match. -/
def matchHead
    (e : Layer) : Reader Term := do
  expect (.name "match")
  let t ← subject e
  expectMark ":"
  expect .lineEnd
  expect .indent
  guard (← isNext (.name "case"))
  return t

/-
  A match, or failure if the line is no first line of one.
  `match` is also a plain name.
-/
def matchStatement
    (b : BlockLayer) : Reader Term := do
  let first ← here
  let t ← matchHead b.expressions
  let cases ←
    manyWhile (isNext (.name "case")) (caseBlock b)
      b.expressions.bound
  expect .dedent
  build "Match" first
    [("subject", t), ("cases", .several cases)]

/- The line at the cursor is the first line of a match. -/
def startsMatch
    (e : Layer) : Reader Bool := do
  return ((matchHead e).run (← get)).isSome

end Statement

end Whittle

------------------------------------------------------------
-- Blocks
------------------------------------------------------------

namespace Whittle

namespace Statement

open Reader

/- One statement as a list. -/
def single
    (statement : Reader Term) : Reader (List Term) := do
  return [← statement]

/- One compound statement, or the simple ones of a line. -/
def statements
    (b : BlockLayer) : Reader (List Term) := do
  let first ← here
  match ← next? with
  | some (.keyword "def") => single (definition b [])
  | some (.keyword "class") => single (definition b [])
  | some (.operator "@") => single (decorated b)
  | some (.keyword "async") => single (asyncStatement b)
  | some (.keyword "if") =>
      single (ifFrom b b.expressions.bound)
  | some (.keyword "while") => single (whileStatement b)
  | some (.keyword "for") => single (forStatement b first "For")
  | some (.keyword "with") =>
      single (withStatement b first "With")
  | some (.keyword "try") => single (tryStatement b)
  | some (.name "match") =>
      if ← startsMatch b.expressions then
        single (matchStatement b)
      else
        simpleLine b.expressions b.expressions.bound
  | _ => simpleLine b.expressions b.expressions.bound

/- Statements up to the end of their block. -/
def statementsUntil
    (isEnd : Reader Bool)
    (b : BlockLayer) : (bound : Nat) → Reader (List Term)
  | 0 => failure
  | bound + 1 => do
      if ← isEnd then
        return []
      else
        let ts ← statements b
        return ts ++ (← statementsUntil isEnd b bound)

/- An indented block, or statements on the same line. -/
def blockOf
    (b : BlockLayer) : Reader (List Term) := do
  if ← accept .lineEnd then
    expect .indent
    let ts ←
      statementsUntil (isNext .dedent) b b.expressions.bound
    expect .dedent
    return ts
  else
    simpleLine b.expressions b.expressions.bound

/- A block that holds at most `depth` others in turn. -/
def readBlock
    (e : Layer) : (depth : Nat) → Reader (List Term)
  | 0 => failure
  | depth + 1 => blockOf ⟨e, readBlock e depth⟩

/- All tokens have been taken. -/
def isAtEnd : Reader Bool := do
  return (← next?).isNone

end Statement

/-
  The term of the tokens of a whole file of `size`
  characters, if they follow the grammar.  Escapes in literals
  may name the characters of which `isCharacterName` knows.
-/
def Term.ofTokens?
    (isCharacterName : String → Bool)
    (size : Nat)
    (tokens : List Token) : Option Term :=
  let bound := size + 16
  let e := Layer.ofBound isCharacterName bound
  let file :=
    Statement.statementsUntil Statement.isAtEnd
      ⟨e, Statement.readBlock e maxBlocks⟩ bound
  (file.run ⟨tokens, default⟩).map fun (ts, _) =>
    Reader.group "Module" [("body", .several ts)]

end Whittle
