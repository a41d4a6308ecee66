import Whittle.Grammar.Target
import Whittle.Token.Literal
import Whittle.Token.Scan

/-
  The grammar of expressions.

  Key definitions include:
    * `Phrase`
    * `Layer`
    * `Layer.atom`
    * `Layer.primary`
    * `Layer.expression`
    * `Layer.ofBound`

  Each kind of phrase is read by a function that calls the
  next narrower kind directly.  Where a token has been taken
  first, the reader of any kind of phrase comes from a layer;
  a layer has a bound, and the layer below it a smaller one.
-/

------------------------------------------------------------
-- Layers
------------------------------------------------------------

namespace Whittle

/- The kinds of phrases that are read inside of others. -/
inductive Phrase where
| primary
| factor
| bitwiseOr
| inversion
| disjunction
| expression
| named
| starNamed
| starred
| starExpressions

/-
  What is known of the names of characters, a bound on the
  number of items of a list, and readers for the phrases
  inside of a phrase.
-/
structure Layer where
  isCharacterName : String → Bool
  bound : Nat
  read : Phrase → Reader Term

namespace Layer

open Reader

/- A token that an expression may start with. -/
def startsExpression : Lexeme → Bool
  | .name _ => true
  | .number _ => true
  | .literal _ => true
  | .keyword word =>
      ["False", "None", "True", "await", "lambda",
        "not"].contains word
  | .operator mark =>
      ["(", "[", "\x7b", "+", "-", "~", "...", "*"].contains
        mark
  | _ => false

/- An expression, perhaps a starred one, may follow. -/
def mayStart : Reader Bool := do
  return (← next?).any startsExpression

end Layer

end Whittle

------------------------------------------------------------
-- String Literals
------------------------------------------------------------

namespace Whittle

namespace Layer

open Reader

/- A text is an expression when it stands in parentheses. -/
def isExpression
    (e : Layer)
    (t : Text) : Bool :=
  !t.all isFieldBlank &&
    match Token.ofText? ('(' :: t ++ [')']) with
    | none => false
    | some tokens =>
        ((e.read .starExpressions).run
          ⟨tokens, default⟩).isSome

/- The inside of a literal is valid. -/
def isValidLiteral
    (e : Layer)
    (l : StringLiteral) : Bool :=
  if l.isFormatted then
    match l.template? with
    | none => false
    | some t =>
        t.rest.isEmpty && t.fields.all e.isExpression &&
          (l.isRaw ||
            t.pieces.all (hasValidEscapes e.isCharacterName false))
  else
    l.isValidPlain e.isCharacterName

/- The string literal at the cursor. -/
def literal : Reader StringLiteral := do
  match ← next? with
  | some (.literal l) =>
      let _ ← take
      return l
  | _ => failure

/- The next token is a string literal. -/
def isLiteral : Reader Bool := do
  match ← next? with
  | some (.literal _) => return true
  | _ => return false

/-
  Adjacent string literals, which make one constant, or one
  template if one of them is formatted.
-/
def strings
    (e : Layer) : Reader Term := do
  let first ← here
  let l ← literal
  let others ← manyWhile isLiteral literal e.bound
  let all := l :: others
  guard (others.all fun k => k.isBytes = l.isBytes)
  guard (all.all e.isValidLiteral)
  build
    (if all.any (·.isFormatted) then "JoinedStr"
      else "Constant")
    first []

end Layer

end Whittle

------------------------------------------------------------
-- Parameters
------------------------------------------------------------

namespace Whittle

/- The parameters of a function read so far. -/
structure Parameters where
  positionalOnly : List Term
  plain : List Term
  remaining : Term
  keywordOnly : List Term
  keywordDefaults : List Term
  mapping : Term
  defaults : List Term

namespace Parameters

def none : Parameters :=
  ⟨[], [], .blank, [], [], .blank, []⟩

def term
    (p : Parameters) : Term :=
  Reader.group "arguments"
    [("posonlyargs", .several p.positionalOnly),
      ("args", .several p.plain),
      ("vararg", p.remaining),
      ("kwonlyargs", .several p.keywordOnly),
      ("kw_defaults", .several p.keywordDefaults),
      ("kwarg", p.mapping),
      ("defaults", .several p.defaults)]

end Parameters

namespace Layer

open Reader

/-
  An annotation, if there is one.  That of the remaining
  parameters may be starred.
-/
def annotation
    (e : Layer)
    (mayStar : Bool) : Reader Term :=
  afterMark ":"
    (e.read (if mayStar then .starred else .expression))

/-
  One parameter, with its annotation where annotations are
  allowed.
-/
def parameter
    (e : Layer)
    (isAnnotated mayStar : Bool) : Reader Term := do
  let first ← here
  let text ← name
  let annotation ←
    when isAnnotated .blank (e.annotation mayStar)
  build "arg" first
    [("arg", .word text), ("annotation", annotation)]

/- The default after a parameter, if there is one. -/
def defaultValue
    (e : Layer) : Reader (Option Term) :=
  after (.operator "=") none (some <$> e.read .expression)

/- A parameter before the star. -/
def plainParameter
    (e : Layer)
    (isAnnotated : Bool)
    (p : Parameters) : Reader Parameters := do
  let new ← e.parameter isAnnotated false
  match ← e.defaultValue with
  | some value =>
      return { p with
        plain := p.plain ++ [new]
        defaults := p.defaults ++ [value] }
  | none =>
      guard p.defaults.isEmpty
      return { p with plain := p.plain ++ [new] }

/- A parameter after the star. -/
def keywordParameter
    (e : Layer)
    (isAnnotated : Bool)
    (p : Parameters) : Reader Parameters := do
  let new ← e.parameter isAnnotated false
  let value ← e.defaultValue
  return { p with
    keywordOnly := p.keywordOnly ++ [new]
    keywordDefaults := p.keywordDefaults ++
      [Term.optional value] }

/- More parameters after a comma, or the closing mark. -/
def moreParameters
    (closing : String)
    (p : Parameters)
    (more : Reader Parameters) : Reader Parameters := do
  if ← acceptMark "," then
    more
  else
    guard (← isMark closing)
    return p

/-
  The parameters up to a closing mark, at most `bound`.
  `afterStar` says that a star has been read, and `isBare`
  that the star needs a parameter to follow.
-/
def parametersFrom
    (e : Layer)
    (isAnnotated : Bool)
    (closing : String) :
    (bound : Nat) → (afterStar isBare : Bool) → Parameters →
      Reader Parameters
  | 0, _, _, _ => failure
  | bound + 1, afterStar, isBare, p => do
      if ← isMark closing then
        guard !isBare
        return p
      else if ← acceptMark "/" then
        guard
          (!afterStar && p.positionalOnly.isEmpty &&
            !p.plain.isEmpty)
        let p : Parameters :=
          { p with positionalOnly := p.plain, plain := [] }
        moreParameters closing p
          (parametersFrom e isAnnotated closing bound false
            false p)
      else if ← acceptMark "*" then
        guard !afterStar
        if ← acceptMark "," then
          parametersFrom e isAnnotated closing bound true true p
        else
          let new ← e.parameter isAnnotated true
          let p : Parameters := { p with remaining := new }
          moreParameters closing p
            (parametersFrom e isAnnotated closing bound true
              false p)
      else if ← acceptMark "**" then
        guard !isBare
        let new ← e.parameter isAnnotated false
        let _ ← acceptMark ","
        guard (← isMark closing)
        return { p with mapping := new }
      else if afterStar then
        let p ← e.keywordParameter isAnnotated p
        moreParameters closing p
          (parametersFrom e isAnnotated closing bound true
            false p)
      else
        let p ← e.plainParameter isAnnotated p
        moreParameters closing p
          (parametersFrom e isAnnotated closing bound false
            false p)

/- The parameters up to a closing mark. -/
def parameters
    (e : Layer)
    (isAnnotated : Bool)
    (closing : String) : Reader Term := do
  let p ←
    e.parametersFrom isAnnotated closing (e.bound + 1) false
      false .none
  return p.term

/- A function without a name. -/
def lambda
    (e : Layer) : Reader Term := do
  let first ← here
  expectWord "lambda"
  let parameters ← e.parameters false ":"
  expectMark ":"
  let body ← e.read .expression
  build "Lambda" first [("args", parameters), ("body", body)]

end Layer

end Whittle

------------------------------------------------------------
-- Comprehensions
------------------------------------------------------------

namespace Whittle

namespace Layer

open Reader

/- A target, perhaps a starred one. -/
def starTarget
    (e : Layer) : Reader Term := do
  let first ← here
  if ← acceptMark "*" then
    guard !(← isMark "*")
    let inner ← asTarget "Store" (← e.read .primary)
    build "Starred" first [("value", inner)]
  else
    asTarget "Store" (← e.read .primary)

/- One target, or several with commas that make a tuple. -/
def starTargets
    (e : Layer) : Reader Term := do
  let first ← here
  let targets ← separated mayStart e.starTarget e.bound
  gather "Tuple" "elts" first pure targets

/- A loop of a comprehension may follow. -/
def startsLoop : Reader Bool := do
  return (← isWord "for") || (← isWord "async")

/- A condition of a comprehension. -/
def loopCondition
    (e : Layer) : Reader Term := do
  expectWord "if"
  e.read .disjunction

/- A loop of a comprehension with its conditions. -/
def loop
    (e : Layer) : Reader Term := do
  let _ ← acceptWord "async"
  expectWord "for"
  let target ← e.starTargets
  expectWord "in"
  let source ← e.read .disjunction
  let conditions ←
    manyWhile (isWord "if") e.loopCondition e.bound
  return group "comprehension"
    [("target", target), ("iter", source),
      ("ifs", .several conditions)]

/- One or more loops of a comprehension. -/
def loops
    (e : Layer) : Reader Term := do
  let first ← e.loop
  let others ← manyWhile startsLoop e.loop e.bound
  return .several (first :: others)

end Layer

end Whittle

------------------------------------------------------------
-- Calls And Subscripts
------------------------------------------------------------

namespace Whittle

/- The arguments of a call. -/
structure Arguments where
  positional : List Term
  keywords : List Term

/-
  What may still follow among arguments: anything, or after a
  keyword no plain argument, or after a mapping no starred
  one either.
-/
inductive ArgumentStage where
| any
| afterKeyword
| afterMapping
deriving DecidableEq

namespace Layer

open Reader

/- A starred expression. -/
def starredArgument
    (e : Layer) : Reader Term := do
  let first ← here
  expectMark "*"
  let value ← e.read .expression
  build "Starred" first [("value", value)]

/- A name as a token. -/
def isNameLexeme : Lexeme → Bool
  | .name _ => true
  | _ => false

/- An assignment inside of an expression comes next. -/
def startsAssignment : Reader Bool :=
  areNext isNameLexeme (· = .operator ":=")

/- A name with an equals sign comes next. -/
def startsKeyword : Reader Bool :=
  areNext isNameLexeme (· = .operator "=")

/- An argument given by name. -/
def keywordArgument
    (e : Layer) : Reader Term := do
  let first ← here
  let text ← name
  expectMark "="
  let value ← e.read .expression
  build "keyword" first
    [("arg", .word text), ("value", value)]

def mappingArgument
    (e : Layer) : Reader Term := do
  let first ← here
  expectMark "**"
  let value ← e.read .expression
  build "keyword" first [("arg", .blank), ("value", value)]

/- The arguments up to the closing mark, at most `bound`. -/
def argumentsFrom
    (e : Layer) :
    (bound : Nat) → ArgumentStage → Reader Arguments
  | 0, _ => failure
  | bound + 1, stage => do
      if ← isMark ")" then
        return ⟨[], []⟩
      else if ← isMark "**" then
        let new ← e.mappingArgument
        let more ← after (.operator ",") ⟨[], []⟩
          (argumentsFrom e bound .afterMapping)
        return { more with keywords := new :: more.keywords }
      else if ← isMark "*" then
        guard (stage ≠ .afterMapping)
        let new ← e.starredArgument
        let more ← after (.operator ",") ⟨[], []⟩
          (argumentsFrom e bound stage)
        return { more with
          positional := new :: more.positional }
      else if ← startsKeyword then
        let new ← e.keywordArgument
        let more ← after (.operator ",") ⟨[], []⟩
          (argumentsFrom e bound
            (if stage = .any then .afterKeyword else stage))
        return { more with keywords := new :: more.keywords }
      else
        guard (stage = .any)
        let new ← e.read .named
        let more ← after (.operator ",") ⟨[], []⟩
          (argumentsFrom e bound .any)
        return { more with
          positional := new :: more.positional }

/- The arguments between parentheses, the first one taken. -/
def arguments
    (e : Layer) : Reader Arguments := do
  let found ← e.argumentsFrom (e.bound + 1) .any
  expectMark ")"
  return found

/- An argument without a star or a name comes next. -/
def startsPlainArgument : Reader Bool := do
  return !(← isMark ")") && !(← isMark "*") &&
    !(← isMark "**") && !(← startsKeyword)

/-
  The arguments of a call after its opening parenthesis at
  `opening`.  A generator may stand there alone, and then has
  the parentheses of the call.
-/
def callArguments
    (e : Layer)
    (opening : Place) : Reader Arguments := do
  if ← startsPlainArgument then
    let first ← e.read .named
    if ← startsLoop then
      let loops ← e.loops
      expectMark ")"
      let t ← build "GeneratorExp" opening
        [("elt", first), ("generators", loops)]
      return ⟨[t], []⟩
    else
      let more ← after (.operator ",") ⟨[], []⟩
        (e.argumentsFrom (e.bound + 1) .any)
      expectMark ")"
      return { more with positional := first :: more.positional }
  else
    e.arguments

/- A part of a slice, which may be missing. -/
def slicePart
    (e : Layer) : Reader Term := do
  if (← mayStart) && !(← isMark "*") then
    e.read .expression
  else
    return .blank

/- The rest of a slice whose first part has been read. -/
def sliceFrom
    (e : Layer)
    (first : Place)
    (lower : Term) : Reader Term := do
  expectMark ":"
  let upper ← e.slicePart
  let step ← afterMark ":" e.slicePart
  build "Slice" first
    [("lower", lower), ("upper", upper), ("step", step)]

/- An item between the brackets of a subscript. -/
def subscriptItem
    (e : Layer) : Reader Term := do
  let first ← here
  if ← isMark "*" then
    e.starredArgument
  else if ← isMark ":" then
    e.sliceFrom first .blank
  else
    let isAssignment ← startsAssignment
    let t ← e.read .named
    if ← isMark ":" then
      guard !isAssignment
      e.sliceFrom first t
    else
      return t

/- What stands between the brackets of a subscript. -/
def subscript
    (e : Layer) : Reader Term := do
  let first ← here
  let items ← separated (isOpen "]") e.subscriptItem e.bound
  let one (t : Term) : Reader Term :=
    if t.label = "Starred" then
      build "Tuple" first [("elts", .several [t])]
    else
      return t
  gather "Tuple" "elts" first one items

end Layer

end Whittle

------------------------------------------------------------
-- Atoms
------------------------------------------------------------

namespace Whittle

namespace Layer

open Reader

def yieldExpression
    (e : Layer) : Reader Term := do
  let first ← here
  expectWord "yield"
  if ← acceptWord "from" then
    let value ← e.read .expression
    build "YieldFrom" first [("value", value)]
  else if ← mayStart then
    let value ← e.read .starExpressions
    build "Yield" first [("value", value)]
  else
    build "Yield" first []

/- What stands in parentheses: a group, tuple or generator. -/
def parenthesized
    (e : Layer) : Reader Term := do
  let first ← here
  expectMark "("
  if ← acceptMark ")" then
    build "Tuple" first [("elts", .several [])]
  else if ← isWord "yield" then
    let inner ← e.yieldExpression
    expectMark ")"
    return inner
  else
    let inner ← e.read .starNamed
    let isStarred := inner.label = "Starred"
    if (← startsLoop) && !isStarred then
      let loops ← e.loops
      expectMark ")"
      build "GeneratorExp" first
        [("elt", inner), ("generators", loops)]
    else if ← isMark "," then
      let (others, _) ←
        afterCommas (isOpen ")") (e.read .starNamed) e.bound
      expectMark ")"
      build "Tuple" first [("elts", .several (inner :: others))]
    else
      guard !isStarred
      expectMark ")"
      return inner

/- A list or a list comprehension. -/
def bracketed
    (e : Layer) : Reader Term := do
  let first ← here
  expectMark "["
  if ← acceptMark "]" then
    build "List" first [("elts", .several [])]
  else
    let inner ← e.read .starNamed
    if (← startsLoop) && inner.label ≠ "Starred" then
      let loops ← e.loops
      expectMark "]"
      build "ListComp" first
        [("elt", inner), ("generators", loops)]
    else
      let (others, _) ←
        afterCommas (isOpen "]") (e.read .starNamed) e.bound
      expectMark "]"
      build "List" first [("elts", .several (inner :: others))]

/- An entry of a mapping: a key and a value, or a mapping. -/
def mappingEntry
    (e : Layer) : Reader (Term × Term) := do
  if ← acceptMark "**" then
    return (.blank, ← e.read .bitwiseOr)
  else
    let key ← e.read .expression
    expectMark ":"
    return (key, ← e.read .expression)

/- A mapping whose first entry has been read. -/
def mappingFrom
    (e : Layer)
    (first : Place)
    (entry : Term × Term) : Reader Term := do
  let (others, _) ←
    afterCommas (isOpen "\x7d") e.mappingEntry e.bound
  expectMark "\x7d"
  let entries := entry :: others
  build "Dict" first
    [("keys", .several (entries.map (·.1))),
      ("values", .several (entries.map (·.2)))]

/- A set or a set comprehension whose first item is read. -/
def setFrom
    (e : Layer)
    (first : Place)
    (item : Term) : Reader Term := do
  if (← startsLoop) && item.label ≠ "Starred" then
    let loops ← e.loops
    expectMark "\x7d"
    build "SetComp" first
      [("elt", item), ("generators", loops)]
  else
    let (others, _) ←
      afterCommas (isOpen "\x7d") (e.read .starNamed) e.bound
    expectMark "\x7d"
    build "Set" first [("elts", .several (item :: others))]

/- A mapping, a set or a comprehension of one of them. -/
def braced
    (e : Layer) : Reader Term := do
  let first ← here
  expectMark "\x7b"
  if ← acceptMark "\x7d" then
    build "Dict" first
      [("keys", .several []), ("values", .several [])]
  else if ← isMark "**" then
    e.mappingFrom first (← e.mappingEntry)
  else
    let isAssignment ← startsAssignment
    let item ← e.read .starNamed
    if (← isMark ":") && !isAssignment &&
        item.label ≠ "Starred" then
      expectMark ":"
      let value ← e.read .expression
      if ← startsLoop then
        let loops ← e.loops
        expectMark "\x7d"
        build "DictComp" first
          [("key", item), ("value", value),
            ("generators", loops)]
      else
        e.mappingFrom first (item, value)
    else
      e.setFrom first item

/- The phrases that no operator can break apart. -/
def atom
    (e : Layer) : Reader Term := do
  match ← next? with
  | some (.name text) => buildName "Load" (← take) text
  | some (.number _) => build "Constant" (← take) []
  | some (.literal _) => e.strings
  | some (.keyword word) =>
      guard (["False", "None", "True"].contains word)
      build "Constant" (← take) []
  | some (.operator "(") => e.parenthesized
  | some (.operator "[") => e.bracketed
  | some (.operator "\x7b") => e.braced
  | some (.operator "...") => build "Constant" (← take) []
  | _ => failure

end Layer

end Whittle

------------------------------------------------------------
-- Operators
------------------------------------------------------------

namespace Whittle

namespace Layer

open Reader

/- Attributes, calls and subscripts after a term. -/
def trailers
    (e : Layer)
    (first : Place) :
    (bound : Nat) → Term → Reader Term
  | 0, t => return t
  | bound + 1, t => do
      if ← acceptMark "." then
        let text ← name
        let longer ← build "Attribute" first
          [("value", t), ("attr", .word text)]
        trailers e first bound longer
      else if ← isMark "(" then
        let opening ← take
        let found ← e.callArguments opening
        let longer ← build "Call" first
          [("func", t), ("args", .several found.positional),
            ("keywords", .several found.keywords)]
        trailers e first bound longer
      else if ← acceptMark "[" then
        let index ← e.subscript
        expectMark "]"
        let longer ← build "Subscript" first
          [("value", t), ("slice", index)]
        trailers e first bound longer
      else
        return t

/- An atom with what follows it closely. -/
def primary
    (e : Layer) : Reader Term := do
  let first ← here
  let t ← e.atom
  e.trailers first e.bound t

/- A primary that may be awaited. -/
def awaited
    (e : Layer) : Reader Term := do
  let first ← here
  if ← acceptWord "await" then
    let value ← e.read .primary
    build "Await" first [("value", value)]
  else
    e.primary

def power
    (e : Layer) : Reader Term := do
  let first ← here
  let base ← e.awaited
  if ← acceptMark "**" then
    let exponent ← e.read .factor
    build "BinOp" first [("left", base), ("right", exponent)]
  else
    return base

/- A term with a sign before it. -/
def factor
    (e : Layer) : Reader Term := do
  let first ← here
  if ← acceptAnyMark ["+", "-", "~"] then
    let operand ← e.read .factor
    build "UnaryOp" first [("operand", operand)]
  else
    e.power

/- Operators of one rank after a term, from the left. -/
def chainFrom
    (marks : List String)
    (operand : Reader Term)
    (first : Place) :
    (bound : Nat) → Term → Reader Term
  | 0, left => return left
  | bound + 1, left => do
      if ← acceptAnyMark marks then
        let right ← operand
        let longer ← build "BinOp" first
          [("left", left), ("right", right)]
        chainFrom marks operand first bound longer
      else
        return left

/- Operands with operators of one rank between them. -/
def chain
    (e : Layer)
    (marks : List String)
    (operand : Reader Term) : Reader Term := do
  let first ← here
  let left ← operand
  chainFrom marks operand first e.bound left

def product
    (e : Layer) : Reader Term :=
  e.chain ["*", "/", "//", "%", "@"] e.factor

def sum
    (e : Layer) : Reader Term :=
  e.chain ["+", "-"] e.product

def shift
    (e : Layer) : Reader Term :=
  e.chain ["<<", ">>"] e.sum

/- Terms joined by all operators on numbers. -/
def bitwiseOr
    (e : Layer) : Reader Term :=
  e.chain ["|"] (e.chain ["^"] (e.chain ["&"] e.shift))

/- A comparison operator comes next. -/
def startsComparison : Reader Bool := do
  return (← isAnyMark ["==", "!=", "<", "<=", ">", ">="]) ||
    (← isWord "in") || (← isWord "is") ||
    (← areNext (· = .keyword "not") (· = .keyword "in"))

/- Take a comparison operator, which has to be next. -/
def takeComparison : Reader Unit := do
  if ← acceptWord "not" then
    expectWord "in"
  else if ← acceptWord "is" then
    let _ ← acceptWord "not"
    return ()
  else
    let _ ← take
    return ()

/- An operand after a comparison operator. -/
def comparedOperand
    (e : Layer) : Reader Term := do
  takeComparison
  e.bitwiseOr

/- A comparison of two or more operands. -/
def comparison
    (e : Layer) : Reader Term := do
  let first ← here
  let left ← e.bitwiseOr
  match ← manyWhile startsComparison e.comparedOperand e.bound with
  | [] => return left
  | others =>
      build "Compare" first
        [("left", left), ("comparators", .several others)]

/- A negation. -/
def inversion
    (e : Layer) : Reader Term := do
  let first ← here
  if ← acceptWord "not" then
    let operand ← e.read .inversion
    build "UnaryOp" first [("operand", operand)]
  else
    e.comparison

/- An operand after a word. -/
def joinedOperand
    (word : String)
    (operand : Reader Term) : Reader Term := do
  expectWord word
  operand

/- Operands joined by a word. -/
def joined
    (e : Layer)
    (word : String)
    (operand : Reader Term) : Reader Term := do
  let first ← here
  let left ← operand
  match ← manyWhile (isWord word) (joinedOperand word operand)
      e.bound with
  | [] => return left
  | others =>
      build "BoolOp" first [("values", .several (left :: others))]

/- A disjunction of conjunctions. -/
def disjunction
    (e : Layer) : Reader Term :=
  e.joined "or" (e.joined "and" e.inversion)

end Layer

end Whittle

------------------------------------------------------------
-- Expressions
------------------------------------------------------------

namespace Whittle

namespace Layer

open Reader

/- An expression without a comma, star or assignment. -/
def expression
    (e : Layer) : Reader Term := do
  let first ← here
  if ← isWord "lambda" then
    e.lambda
  else
    let body ← e.disjunction
    if ← acceptWord "if" then
      let test ← e.read .disjunction
      expectWord "else"
      let orelse ← e.read .expression
      build "IfExp" first
        [("test", test), ("body", body), ("orelse", orelse)]
    else
      return body

/- An expression, perhaps with a name assigned to it. -/
def named
    (e : Layer) : Reader Term := do
  if ← startsAssignment then
    let first ← here
    let text ← name
    let target ← buildName "Store" first text
    expectMark ":="
    let value ← e.read .expression
    build "NamedExpr" first
      [("target", target), ("value", value)]
  else
    let t ← e.expression
    guard !(← isMark ":=")
    return t

/- An item with a star, or else another phrase. -/
def starOr
    (e : Layer)
    (other : Reader Term) : Reader Term := do
  let first ← here
  if ← acceptMark "*" then
    let value ← e.read .bitwiseOr
    build "Starred" first [("value", value)]
  else
    other

/- An item of a list in brackets. -/
def starNamed
    (e : Layer) : Reader Term :=
  e.starOr e.named

/- An expression, perhaps with a star. -/
def starExpression
    (e : Layer) : Reader Term :=
  e.starOr e.expression

/- One expression, or several with commas that make a tuple. -/
def starExpressions
    (e : Layer) : Reader Term := do
  let first ← here
  let items ← separated mayStart e.starExpression e.bound
  gather "Tuple" "elts" first pure items

/- The reader of a kind of phrase. -/
def reader
    (e : Layer) : Phrase → Reader Term
  | .primary => e.primary
  | .factor => e.factor
  | .bitwiseOr => e.bitwiseOr
  | .inversion => e.inversion
  | .disjunction => e.disjunction
  | .expression => e.expression
  | .named => e.named
  | .starNamed => e.starNamed
  | .starred => e.starExpression
  | .starExpressions => e.starExpressions

/- Read a phrase that holds at most `bound` others in turn. -/
def readBelow
    (isCharacterName : String → Bool) :
    (bound : Nat) → Phrase → Reader Term
  | 0, _ => failure
  | bound + 1, phrase =>
      Layer.reader
        ⟨isCharacterName, bound, readBelow isCharacterName bound⟩
        phrase

/- The layer of phrases of a bounded size. -/
def ofBound
    (isCharacterName : String → Bool)
    (bound : Nat) : Layer :=
  ⟨isCharacterName, bound, readBelow isCharacterName bound⟩

end Layer

end Whittle
