import Whittle.Query.Path
import Whittle.Text.Digit

/-
  Reading path queries.

  Key definitions include:
    * `QueryError`
    * `Condition`
    * `readCondition`
    * `readStep?`
    * `readQuery`

  A query is a sequence of steps: an axis `/` or `//`, a kind
  or `*`, and conditions in brackets, each a position or
  `@Image='text'`.  A query without an axis starts with `//`.
-/

------------------------------------------------------------
-- Errors
------------------------------------------------------------

namespace Whittle

/- Why an expression is not a query. -/
inductive QueryError where
| empty
| unreadable (expression : String) (offset : Nat)
| zeroPosition (expression : String)
| unsupported (condition expression : String)
| tooManyDigits (count : Nat)
deriving DecidableEq, Repr

namespace QueryError

/- The wording of a refusal. -/
def message : QueryError → String
  | empty => "Empty query expression."
  | unreadable expression offset =>
      "Cannot parse " ++ quote expression ++ " at offset " ++
        toString offset
  | zeroPosition expression =>
      "Positions are 1-based in " ++ quote expression
  | unsupported condition expression =>
      "Unsupported predicate [" ++ condition ++ "] in " ++
        quote expression
  | tooManyDigits count =>
      "Exceeds the limit (" ++ toString maxDigits ++
        " digits) for integer string conversion: " ++
        "value has " ++ toString count ++
        " digits; use sys.set_int_max_str_digits() to " ++
        "increase the limit"

end QueryError

end Whittle

------------------------------------------------------------
-- Conditions
------------------------------------------------------------

namespace Whittle

/- What stands between brackets. -/
inductive Condition where
| image (text : String)
| position (digits : List Nat)
deriving DecidableEq, Repr

/- What follows the given start of a text. -/
def dropStart?
    (start : Text) : Text → Option Text
  | rest =>
      if start.isPrefixOf rest then
        some (rest.drop start.length)
      else
        none

/- A text between quotes of one kind, and nothing else. -/
def readQuoted?
    (mark : Char) : Text → Option Text
  | [] => none
  | c :: rest =>
      if c = mark then
        if rest.all isBlank then some [] else none
      else
        (readQuoted? mark rest).map (c :: ·)

/- `@Image = 'text'`, with white space anywhere around. -/
def readImage?
    (raw : Text) : Option Text :=
  let blankless := List.dropWhile isBlank
  match dropStart? "@Image".toList (blankless raw) with
  | none => none
  | some rest =>
      match blankless rest with
      | '=' :: value =>
          match blankless value with
          | '\'' :: inside => readQuoted? '\'' inside
          | '"' :: inside => readQuoted? '"' inside
          | _ => none
      | _ => none

/- The condition between brackets. -/
def readCondition
    (raw : Text) : Option Condition :=
  match readImage? raw with
  | some text => some (.image (String.ofList text))
  | none =>
      (Text.digits? (Text.strip raw)).map .position

end Whittle

------------------------------------------------------------
-- Steps
------------------------------------------------------------

namespace Whittle

/- A step as it stands in an expression. -/
structure RawStep where
  descends : Bool
  kind : Option String
  conditions : List Text
deriving DecidableEq, Repr

/- The text inside a bracket group, and what follows it. -/
def readGroup?
    (rest : Text) : Option (Text × Text) :=
  match rest with
  | '[' :: inside =>
      match inside.dropWhile (· ≠ ']') with
      | ']' :: after => some (inside.takeWhile (· ≠ ']'), after)
      | _ => none
  | _ => none

/- As many bracket groups as follow, at most `fuel`. -/
def readGroups : (fuel : Nat) → Text → List Text × Text
  | 0, rest => ([], rest)
  | fuel + 1, rest =>
      match readGroup? rest with
      | none => ([], rest)
      | some (inside, after) =>
          let (more, last) := readGroups fuel after
          (inside :: more, last)

/- A letter, a digit of ASCII or an underscore. -/
def isWordChar
    (c : Char) : Bool :=
  c.isAlphanum || c = '_'

/- The kind that a step asks for, and what follows it. -/
def readKind?
    (rest : Text) : Option (Option String × Text) :=
  match rest with
  | '*' :: after => some (none, after)
  | c :: _ =>
      if isWordChar c && !c.isDigit then
        some (some (String.ofList (rest.takeWhile isWordChar)),
          rest.dropWhile isWordChar)
      else
        none
  | [] => none

/- The step at the start of a text, and what follows it. -/
def readStep?
    (rest : Text) : Option (RawStep × Text) :=
  let axis? :=
    match rest with
    | '/' :: '/' :: after => some (true, after)
    | '/' :: after => some (false, after)
    | _ => none
  match axis? with
  | none => none
  | some (descends, after) =>
      match readKind? after with
      | none => none
      | some (kind, after) =>
          let (conditions, last) :=
            readGroups after.length after
          some (⟨descends, kind, conditions⟩, last)

/-
  Add conditions to a step.  A later image or position takes
  the place of an earlier one.
-/
def addConditions
    (expression : String)
    (s : Step) : List Text → Except QueryError Step
  | [] => .ok s
  | raw :: more =>
      match readCondition raw with
      | none =>
          .error (.unsupported (String.ofList raw) expression)
      | some (.image text) =>
          addConditions expression
            { s with image := some text } more
      | some (.position digits) =>
          if maxDigits < digits.length then
            .error (.tooManyDigits digits.length)
          else
            let n := Text.valueOfDigits digits
            if n = 0 then
              .error (.zeroPosition expression)
            else
              addConditions expression
                { s with position := some n } more

/-
  The steps of the rest of an expression of `length`
  characters.  `fuel` bounds the number of steps.
-/
def readSteps
    (expression : String)
    (length : Nat) :
    (fuel : Nat) → Text → Except QueryError (List Step)
  | _, [] => .ok []
  | 0, rest =>
      .error (.unreadable expression (length - rest.length))
  | fuel + 1, rest =>
      match readStep? rest with
      | none =>
          .error
            (.unreadable expression (length - rest.length))
      | some (raw, after) =>
          match addConditions expression
              ⟨raw.descends, raw.kind, none, none⟩
              raw.conditions with
          | .error e => .error e
          | .ok s =>
              (readSteps expression length fuel after).map
                (s :: ·)

/- The query that an expression writes. -/
def readQuery
    (expression : String) : Except QueryError PathQuery :=
  let stripped := Text.strip expression.toList
  if stripped.isEmpty then
    .error .empty
  else
    let text :=
      if stripped.head? = some '/' then
        stripped
      else
        '/' :: '/' :: stripped
    (readSteps expression text.length text.length text).map
      fun steps => ⟨expression, steps⟩

end Whittle
