import Whittle.Shell.Glob

/-
  Regular expressions.

  Key definitions include:
    * `Regex`
    * `Regex.rests`
    * `Regex.ofText?`
    * `Regex.fixed`
-/

------------------------------------------------------------
-- Matching
------------------------------------------------------------

namespace Whittle

namespace Shell

/-
  A regular expression.
    * `nothing` fits the empty text.
    * `one` fits one character of a class.
    * `start` and `finish` fit at the two ends of a line.
-/
inductive Regex where
| nothing
| one (accepts : Char → Bool)
| start
| finish
| both (first second : Regex)
| either (first second : Regex)
| repeated (body : Regex)

namespace Regex

/- All texts that are reached by steps, each one shorter. -/
def reached
    (step : Text → List Text) :
    (fuel : Nat) → Text → List Text
  | 0, t => [t]
  | fuel + 1, t =>
      let next := (step t).filter (·.length < t.length)
      (t :: next.flatMap (reached step fuel)).eraseDups

/-
  What may be left of a text when an expression has taken
  something from its start.  The line has `size` characters.
-/
def rests
    (size : Nat) : Regex → Text → List Text
  | .nothing, t => [t]
  | .one accepts, t =>
      match t with
      | [] => []
      | c :: t => if accepts c then [t] else []
  | .start, t => if t.length = size then [t] else []
  | .finish, t => if t.isEmpty then [t] else []
  | .both first second, t =>
      ((rests size first t).flatMap (rests size second)).eraseDups
  | .either first second, t =>
      (rests size first t ++ rests size second t).eraseDups
  | .repeated body, t => reached (rests size body) t.length t

/- The expression that fits one text only. -/
def fixed : Text → Regex
  | [] => nothing
  | c :: rest => both (one (· = c)) (fixed rest)

/- The same expression for letters in upper or lower case. -/
def ignoringCase : Regex → Regex
  | .one accepts =>
      one fun c =>
        accepts c || accepts c.toLower || accepts c.toUpper
  | .both first second =>
      both (ignoringCase first) (ignoringCase second)
  | .either first second =>
      either (ignoringCase first) (ignoringCase second)
  | .repeated body => repeated (ignoringCase body)
  | .nothing => nothing
  | .start => start
  | .finish => finish

/- An expression some number of times. -/
def times
    (r : Regex) : Nat → Regex
  | 0 => nothing
  | n + 1 => both r (times r n)

/- An expression at most some number of times. -/
def atMost
    (r : Regex) : Nat → Regex
  | 0 => nothing
  | n + 1 => either nothing (both r (atMost r n))

end Regex

end Shell

end Whittle

------------------------------------------------------------
-- Reading
------------------------------------------------------------

namespace Whittle

namespace Shell

/- A part of a regular expression that is read as a whole. -/
inductive RegexToken where
| sign (c : Char)
| one (accepts : Char → Bool)

namespace RegexToken

/- The token is a certain sign. -/
def isSign
    (c : Char) : RegexToken → Bool
  | .sign d => c = d
  | .one _ => false

end RegexToken

/- A character of a word. -/
def isWordChar
    (c : Char) : Bool :=
  c.isAlphanum || c = '_'

/- The classes that a backslash and a letter write. -/
def escapedClass?
    (c : Char) : Option (Char → Bool) :=
  let isSpace (c : Char) : Bool := c = ' ' || isBetween '\t' '\r' c
  match c with
  | 'w' => some isWordChar
  | 'W' => some fun c => !isWordChar c
  | 's' => some isSpace
  | 'S' => some fun c => !isSpace c
  | _ => none

/-
  The parts of a regular expression.  In an extended one the
  signs stand alone, otherwise after a backslash.  `opens`
  tells that a branch begins here.
-/
def regexTokens
    (isExtended : Bool) :
    (fuel : Nat) → (opens : Bool) → Text → List RegexToken
  | 0, _, _ => []
  | _ + 1, _, [] => []
  | fuel + 1, opens, c :: rest =>
      let go := regexTokens isExtended fuel
      let one (f : Char → Bool) (rest : Text) :=
        .one f :: go false rest
      let isSign (c : Char) : Bool := "()|+?\x7b\x7d".toList.contains c
      let ends : Bool :=
        isExtended || rest.isEmpty ||
          "\\)".toList.isPrefixOf rest || "\\|".toList.isPrefixOf rest
      if c = '\\' then
        match rest with
        | [] => [.one (· = '\\')]
        | d :: rest =>
            if !isExtended && isSign d then
              .sign d :: go (d = '(' || d = '|') rest
            else
              one ((escapedClass? d).getD (· = d)) rest
      else if isExtended && isSign c then
        .sign c :: go (c = '(' || c = '|') rest
      else if c = '*' then
        if opens then one (· = '*') rest else .sign '*' :: go false rest
      else if c = '.' then
        one (fun _ => true) rest
      else if c = '^' && (isExtended || opens) then
        .sign '^' :: go true rest
      else if c = '$' && ends then
        .sign '$' :: go false rest
      else if c = '[' then
        match readBracket? ['^'] rest with
        | some (f, rest) => one f rest
        | none => one (· = c) rest
      else
        one (· = c) rest

/- The number that digits write, if there are any. -/
def bound?
    (ts : List Char) : Option Nat :=
  (String.ofList ts).toNat?

/- The digits or the comma that a token stands for. -/
def boundChar? : RegexToken → Option Char
  | .sign _ => none
  | .one accepts => "0123456789,".toList.find? accepts

/- An expression that may be repeated, from its bounds on. -/
def bounded?
    (r : Regex)
    (bounds : Text) : Option Regex :=
  match splitWhere (· = ',') bounds with
  | [least] => (bound? least).map r.times
  | [least, most] =>
      let low := (bound? least).getD 0
      if most.isEmpty then
        some (.both (r.times low) (.repeated r))
      else
        (bound? most).bind fun high =>
          if low ≤ high then
            some (.both (r.times low) (r.atMost (high - low)))
          else
            none
  | _ => none

/- An expression with the signs that repeat it. -/
def readRepeats :
    (fuel : Nat) → Regex → List RegexToken →
      Option (Regex × List RegexToken)
  | 0, _, _ => none
  | fuel + 1, r, ts =>
      match ts with
      | .sign '*' :: rest => readRepeats fuel (.repeated r) rest
      | .sign '+' :: rest =>
          readRepeats fuel (.both r (.repeated r)) rest
      | .sign '?' :: rest =>
          readRepeats fuel (.either .nothing r) rest
      | .sign '\x7b' :: rest =>
          let bounds := rest.takeWhile fun t => (boundChar? t).isSome
          match rest.drop bounds.length with
          | .sign '\x7d' :: rest => do
              let r ← bounded? r (bounds.filterMap boundChar?)
              readRepeats fuel r rest
          | _ => none
      | _ => some (r, ts)

mutual

/- Branches with bars between them. -/
def readBranches :
    (fuel : Nat) → List RegexToken →
      Option (Regex × List RegexToken)
  | 0, _ => none
  | fuel + 1, ts => do
      let (first, rest) ← readBranch fuel ts
      match rest with
      | .sign '|' :: rest =>
          let (second, rest) ← readBranches fuel rest
          pure (.either first second, rest)
      | _ => pure (first, rest)

/- Expressions one after the other. -/
def readBranch :
    (fuel : Nat) → List RegexToken →
      Option (Regex × List RegexToken)
  | 0, _ => none
  | fuel + 1, ts =>
      let more (r : Regex) (rest : List RegexToken) := do
        let (r, rest) ← readRepeats fuel r rest
        let (second, rest) ← readBranch fuel rest
        pure (.both r second, rest)
      match ts with
      | [] => some (.nothing, [])
      | .one f :: rest => more (.one f) rest
      | .sign '^' :: rest => more .start rest
      | .sign '$' :: rest => more .finish rest
      | .sign '(' :: rest => do
          let (inner, rest) ← readBranches fuel rest
          match rest with
          | .sign ')' :: rest => more inner rest
          | _ => none
      | .sign ')' :: _ => some (.nothing, ts)
      | .sign '|' :: _ => some (.nothing, ts)
      | .sign c :: rest => more (.one (· = c)) rest

end

namespace Regex

/- The regular expression that a text writes. -/
def ofText?
    (isExtended : Bool)
    (t : Text) : Option Regex :=
  let ts := regexTokens isExtended (t.length + 1) true t
  match readBranches (4 * ts.length + 8) ts with
  | some (r, []) => some r
  | _ => none

end Regex

end Shell

end Whittle
