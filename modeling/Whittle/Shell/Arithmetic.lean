import Whittle.Text.Basic
import Whittle.Text.Quoted

/-
  Arithmetic in shell scripts.

  Key definitions include:
    * `Shell.natural?`
    * `Formula`
    * `Formula.ofText?`
    * `Formula.evaluate`
-/

------------------------------------------------------------
-- Numbers
------------------------------------------------------------

namespace Whittle

namespace Shell

/- The value of digits in a base. -/
def digitsIn?
    (base : Nat)
    (ds : Text) : Option Nat :=
  if ds.isEmpty then
    none
  else
    ds.foldl
      (fun value? c =>
        match value?, hexValue? c with
        | some value, some d =>
            if d < base then some (value * base + d) else none
        | _, _ => none)
      (some 0)

/- A number without a sign: hexadecimal, octal or decimal. -/
def natural?
    (t : Text) : Option Nat :=
  match t with
  | '0' :: 'x' :: ds => digitsIn? 16 ds
  | '0' :: 'X' :: ds => digitsIn? 16 ds
  | '0' :: d :: ds => digitsIn? 8 (d :: ds)
  | _ => digitsIn? 10 t

/- A decimal number with a sign and blanks around it. -/
def decimal?
    (t : Text) : Option Int :=
  let blank (c : Char) : Bool := c = ' ' || ('\t' ≤ c && c ≤ '\r')
  match trimWhere blank t with
  | '-' :: ds => (digitsIn? 10 ds).map fun n => -(n : Int)
  | '+' :: ds => (digitsIn? 10 ds).map Int.ofNat
  | ds => (digitsIn? 10 ds).map Int.ofNat

/- How many numbers there are: each has 64 bits. -/
def wordSize : Nat :=
  18446744073709551616

/- The number with the same bits, one of them for the sign. -/
def wrapped
    (n : Int) : Int :=
  Int.bmod n wordSize

end Shell

end Whittle

------------------------------------------------------------
-- Formulas
------------------------------------------------------------

namespace Whittle

namespace Shell

/- A formula.  An assignment gives its value to a variable. -/
inductive Formula where
| number (n : Int)
| variable (name : String)
| unary (sign : String) (operand : Formula)
| binary (sign : String) (left right : Formula)
| conditional (test yes no : Formula)
| assign (name : String) (value : Formula)
deriving Repr

/- A part of a formula that is read as a whole. -/
inductive FormulaToken where
| number (n : Nat)
| name (s : String)
| sign (s : String)
deriving DecidableEq, Repr

/- The signs of formulas, longer ones first. -/
def formulaSigns : List String :=
  ["<<=", ">>=", "<<", ">>", "<=", ">=", "==", "!=", "&&", "||",
    "+=", "-=", "*=", "/=", "%=", "&=", "|=", "^=", "+", "-",
    "*", "/", "%", "<", ">", "=", "!", "~", "&", "|", "^", "?",
    ":", "(", ")"]

/- The parts of a formula. -/
def formulaTokens? : (fuel : Nat) → Text → Option (List FormulaToken)
  | 0, _ => none
  | _ + 1, [] => some []
  | fuel + 1, c :: rest =>
      if c = ' ' || c = '\t' || c = '\n' then
        formulaTokens? fuel rest
      else if c.isDigit then
        let t := c :: rest
        let ds := t.takeWhile Char.isAlphanum
        match natural? ds with
        | some n =>
            (formulaTokens? fuel (t.drop ds.length)).map (.number n :: ·)
        | none => none
      else if c.isAlpha || c = '_' then
        let t := c :: rest
        let cs := t.takeWhile fun c => c.isAlphanum || c = '_'
        (formulaTokens? fuel (t.drop cs.length)).map
          (.name (String.ofList cs) :: ·)
      else
        match formulaSigns.find? fun s =>
            s.toList.isPrefixOf (c :: rest) with
        | some s =>
            (formulaTokens? fuel ((c :: rest).drop s.length)).map
              (.sign s :: ·)
        | none => none

/- The signs between two operands, weaker ones first. -/
def binaryLevels : List (List String) :=
  [["||"], ["&&"], ["|"], ["^"], ["&"], ["==", "!="],
    ["<", "<=", ">", ">="], ["<<", ">>"], ["+", "-"],
    ["*", "/", "%"]]

/- A formula and the parts that follow it. -/
abbrev FormulaReading :=
  Option (Formula × List FormulaToken)

mutual

/- A formula that may be an assignment or conditional. -/
def readFormula :
    (fuel : Nat) → List FormulaToken → FormulaReading
  | 0, _ => none
  | fuel + 1, ts =>
      match ts with
      | .name s :: .sign "=" :: rest => do
          let (value, rest) ← readFormula fuel rest
          pure (.assign s value, rest)
      | _ => do
          let (test, rest) ← readLevel fuel binaryLevels ts
          match test, rest with
          | _, .sign "?" :: rest =>
              let (yes, rest) ← readFormula fuel rest
              match rest with
              | .sign ":" :: rest =>
                  let (no, rest) ← readFormula fuel rest
                  pure (.conditional test yes no, rest)
              | _ => none
          | .variable s, .sign sign :: more =>
              if sign.length > 1 && sign.endsWith "=" &&
                  sign ≠ "==" then
                let (value, rest) ← readFormula fuel more
                let short := String.ofList sign.toList.dropLast
                pure
                  (.assign s (.binary short (.variable s) value),
                    rest)
              else
                pure (test, rest)
          | _, _ => pure (test, rest)

/- Operands with signs of a level between them. -/
def readLevel :
    (fuel : Nat) → List (List String) → List FormulaToken →
      FormulaReading
  | 0, _, _ => none
  | fuel + 1, [], ts => readOperand fuel ts
  | fuel + 1, level :: levels, ts => do
      let (left, rest) ← readLevel fuel levels ts
      readMore fuel level levels left rest

/- Go on after an operand of a level. -/
def readMore :
    (fuel : Nat) → List String → List (List String) → Formula →
      List FormulaToken → FormulaReading
  | 0, _, _, _, _ => none
  | fuel + 1, level, levels, left, ts =>
      match ts with
      | .sign s :: rest =>
          if level.contains s then do
            let (right, rest) ← readLevel fuel levels rest
            readMore fuel level levels (.binary s left right) rest
          else
            some (left, ts)
      | _ => some (left, ts)

/- A number, a variable, or a formula with a sign or brackets. -/
def readOperand :
    (fuel : Nat) → List FormulaToken → FormulaReading
  | 0, _ => none
  | fuel + 1, ts =>
      match ts with
      | .number n :: rest => some (.number n, rest)
      | .name s :: rest => some (.variable s, rest)
      | .sign "(" :: rest => do
          let (inner, rest) ← readFormula fuel rest
          match rest with
          | .sign ")" :: rest => pure (inner, rest)
          | _ => none
      | .sign s :: rest =>
          if ["+", "-", "!", "~"].contains s then do
            let (operand, rest) ← readOperand fuel rest
            pure (.unary s operand, rest)
          else
            none
      | [] => none

end

namespace Formula

/- The formula that a text writes; an empty one is zero. -/
def ofText?
    (t : Text) : Option Formula :=
  match formulaTokens? (t.length + 1) t with
  | none => none
  | some [] => some (.number 0)
  | some ts =>
      match readFormula (16 * ts.length + 16) ts with
      | some (f, []) => some f
      | _ => none

/- The value of a sign in front of an operand. -/
def unaryValue
    (sign : String)
    (n : Int) : Int :=
  match sign with
  | "-" => wrapped (-n)
  | "!" => if n = 0 then 1 else 0
  | "~" => -n - 1
  | _ => n

/- An operation on the bits of two numbers. -/
def bitwise
    (f : Nat → Nat → Nat)
    (a b : Int) : Int :=
  wrapped (f (a % wordSize).toNat (b % wordSize).toNat)

/- One if a condition holds, and zero otherwise. -/
def truth
    (b : Bool) : Int :=
  if b then 1 else 0

/- The value of a sign between two operands. -/
def binaryValue?
    (sign : String)
    (a b : Int) : Option Int :=
  match sign with
  | "+" => some (wrapped (a + b))
  | "-" => some (wrapped (a - b))
  | "*" => some (wrapped (a * b))
  | "/" => if b = 0 then none else some (wrapped (a.tdiv b))
  | "%" => if b = 0 then none else some (a.tmod b)
  | "<<" => some (wrapped (a * Int.pow 2 (b % 64).toNat))
  | ">>" => some (a.fdiv (Int.pow 2 (b % 64).toNat))
  | "<" => some (truth (a < b))
  | "<=" => some (truth (a ≤ b))
  | ">" => some (truth (a > b))
  | ">=" => some (truth (a ≥ b))
  | "==" => some (truth (a = b))
  | "!=" => some (truth (a ≠ b))
  | "&" => some (bitwise Nat.land a b)
  | "^" => some (bitwise Nat.xor a b)
  | "|" => some (bitwise Nat.lor a b)
  | "&&" => some (truth (a ≠ 0 && b ≠ 0))
  | "||" => some (truth (a ≠ 0 || b ≠ 0))
  | _ => none

/-
  The value of a formula, and the variables that it sets, the
  latest one first.  `lookup` gives the values from before.
-/
def evaluate
    (lookup : String → Option Int) :
    Formula → StateT (List (String × Int)) Option Int
  | .number n => pure (wrapped n)
  | .variable name => do
      match (← get).lookup name with
      | some n => pure n
      | none => (lookup name : Option Int)
  | .unary sign operand => do
      let n ← evaluate lookup operand
      pure (unaryValue sign n)
  | .binary sign left right => do
      let a ← evaluate lookup left
      let isSettled :=
        (sign = "&&" && a = 0) || (sign = "||" && a ≠ 0)
      if isSettled then
        pure (truth (a ≠ 0))
      else
        let b ← evaluate lookup right
        (binaryValue? sign a b : Option Int)
  | .conditional test yes no => do
      let n ← evaluate lookup test
      if n ≠ 0 then evaluate lookup yes else evaluate lookup no
  | .assign name value => do
      let n ← evaluate lookup value
      modify ((name, n) :: ·)
      pure n

end Formula

end Shell

end Whittle
