import Whittle.Shell.Arithmetic
import Whittle.Shell.Raw

/-
  Conditions on texts, numbers and files.

  Key definitions include:
    * `conditionHolds?`
-/

------------------------------------------------------------
-- Conditions
------------------------------------------------------------

namespace Whittle

namespace Shell

/- What a path of the script leads to. -/
def entryOf?
    (d : Disk)
    (name : Text) : Option DiskEntry :=
  match d.find (rawPath name) with
  | .ok (_, entry) => if name.isEmpty then none else entry
  | .error _ => none

/- A condition on one text, if there is one of that sign. -/
def unaryCondition?
    (d : Disk)
    (sign : String)
    (t : Text) : Option Bool :=
  match sign with
  | "-n" => some !t.isEmpty
  | "-z" => some t.isEmpty
  | "-e" | "-r" | "-w" => some (entryOf? d t).isSome
  | "-f" =>
      match entryOf? d t with
      | some (.file _) => some true
      | _ => some false
  | "-d" | "-x" => some (entryOf? d t = some .directory)
  | "-s" =>
      match entryOf? d t with
      | some (.file contents) => some !contents.isEmpty
      | some .directory => some true
      | none => some false
  | "-h" | "-L" | "-t" | "-p" | "-b" | "-c" | "-S" | "-u" | "-g" |
      "-k" =>
      some false
  | _ => none

/- The signs between two operands. -/
def binarySigns : List String :=
  ["=", "!=", "<", ">", "-eq", "-ne", "-lt", "-le", "-gt", "-ge"]

/- A condition on two texts or numbers. -/
def binaryCondition?
    (sign : String)
    (a b : Text) : Option Bool :=
  let onNumbers (holds : Int → Int → Bool) : Option Bool := do
    let m ← decimal? a
    let n ← decimal? b
    pure (holds m n)
  match sign with
  | "=" => some (a = b)
  | "!=" => some (a ≠ b)
  | "<" => some (a < b)
  | ">" => some (b < a)
  | "-eq" => onNumbers (· = ·)
  | "-ne" => onNumbers (· ≠ ·)
  | "-lt" => onNumbers (· < ·)
  | "-le" => onNumbers (· ≤ ·)
  | "-gt" => onNumbers (· > ·)
  | "-ge" => onNumbers (· ≥ ·)
  | _ => none

/- The value of a condition and the arguments after it. -/
abbrev ConditionReading :=
  Option (Bool × List Text)

/- A condition that spans all of its arguments. -/
def whole
    (r : ConditionReading) : Option Bool :=
  match r with
  | some (b, []) => some b
  | _ => none

mutual

/- Conditions of which one has to hold. -/
def readEither
    (d : Disk) :
    (fuel : Nat) → List Text → ConditionReading
  | 0, _ => none
  | fuel + 1, args => do
      let (first, rest) ← readBoth d fuel args
      match rest with
      | ['-', 'o'] :: rest =>
          let (second, rest) ← readEither d fuel rest
          pure (first || second, rest)
      | _ => pure (first, rest)

/- Conditions that all have to hold. -/
def readBoth
    (d : Disk) :
    (fuel : Nat) → List Text → ConditionReading
  | 0, _ => none
  | fuel + 1, args => do
      let (first, rest) ← readPrimary d fuel args
      match rest with
      | ['-', 'a'] :: rest =>
          let (second, rest) ← readBoth d fuel rest
          pure (first && second, rest)
      | _ => pure (first, rest)

/- A condition without such signs. -/
def readPrimary
    (d : Disk) :
    (fuel : Nat) → List Text → ConditionReading
  | 0, _ => none
  | fuel + 1, args =>
      match args with
      | [] => none
      | a :: rest =>
          let onTwo : ConditionReading :=
            match rest with
            | sign :: b :: more =>
                let sign := String.ofList sign
                if binarySigns.contains sign then
                  (binaryCondition? sign a b).map (·, more)
                else
                  none
            | _ => none
          let isOnTwo :=
            rest.length ≥ 2 &&
              rest.head?.any fun sign =>
                binarySigns.contains (String.ofList sign)
          if isOnTwo then
            onTwo
          else if a = ['!'] then
            if rest.isEmpty then
              some (true, [])
            else
              (readPrimary d fuel rest).map fun (b, rest) => (!b, rest)
          else if a = ['('] && !rest.isEmpty then do
            let (inner, rest) ← readEither d fuel rest
            match rest with
            | [')'] :: rest => pure (inner, rest)
            | _ => none
          else
            match rest with
            | [] => some (!a.isEmpty, [])
            | b :: more =>
                match unaryCondition? d (String.ofList a) b with
                | some holds => some (holds, more)
                | none => some (!a.isEmpty, rest)

end

/- The condition that arguments write, if they write one. -/
def conditionHolds?
    (d : Disk)
    (args : List Text) : Option Bool :=
  if args.isEmpty then
    some false
  else
    whole (readEither d (4 * args.length + 4) args)

end Shell

end Whittle
