import Whittle.Shell.Condition
import Whittle.Shell.Format
import Whittle.Shell.State

/-
  Commands that a shell knows, and programs that it finds.
  The programs stand for those of a real system.

  Key definitions include:
    * `builtin?`
    * `program?`
-/

------------------------------------------------------------
-- Programs
------------------------------------------------------------

namespace Whittle

namespace Shell

/- Write what a tool leaves. -/
def give
    (r : ToolResult) : Job Unit := do
  write r.out
  complain r.err
  setStatus r.status

/- Write the arguments. -/
def echo
    (args : List Text) : Job Unit := do
  write (echoed args)
  setStatus 0

/- Write the arguments by a format. -/
def printf
    (args : List Text) : Job Unit := do
  let args := if args.head? = some ['-', '-'] then args.drop 1 else args
  match args with
  | [] => give ⟨[], "printf: usage\n".toList, 2⟩
  | format :: args => give (formatted format args)

/- See whether a condition holds. -/
def test
    (args : List Text) : Job Unit := do
  match conditionHolds? (← get).disk args with
  | some holds => setStatus (if holds then 0 else 1)
  | none => give ⟨[], "test: unexpected operator\n".toList, 2⟩

/- See whether a condition between brackets holds. -/
def bracket
    (args : List Text) : Job Unit :=
  if args.getLast? = some [']'] then
    test args.dropLast
  else
    give ⟨[], "[: missing ]\n".toList, 2⟩

/- What a program complains about a file. -/
def fileComplaint
    (program : String)
    (name : Text)
    (e : DiskError) : Text :=
  (program ++ ": ").toList ++ name ++
    (": " ++ e.kind.text ++ "\n").toList

/- The contents of a file, or of the input for a hyphen. -/
def readFile
    (program : String)
    (name : Text) : Job (Except Text Text) := do
  if name = ['-'] then
    let t ← readAll
    pure (.ok t)
  else if cooked name = "/dev/null" then
    pure (.ok [])
  else
    match (← get).contents name with
    | .ok t => pure (.ok t)
    | .error e => pure (.error (fileComplaint program name e))

/- Write the contents of files. -/
def cat
    (args : List Text) : Job Unit := do
  let isOption (t : Text) : Bool := t.head? = some '-' && t.length > 1
  let names := args.filter (!isOption ·)
  let mut status : Int := 0
  for name in if names.isEmpty then [['-']] else names do
    match ← readFile "cat" name with
    | .ok t => write t
    | .error e =>
        complain e
        status := 1
  setStatus status

/- Search files, or the input, for lines. -/
def grep
    (args : List Text) : Job Unit := do
  match GrepOptions.ofArguments? args with
  | none => give ⟨[], "grep: usage\n".toList, 2⟩
  | some o =>
      let names := if o.operands.isEmpty then [['-']] else o.operands
      let files ← names.mapM fun name => do
        let contents ← readFile "grep" name
        let shown : Text :=
          if name = ['-'] then "(standard input)".toList else name
        pure (shown, contents)
      give (o.search files)

/- A program that only has a status. -/
def quietly
    (status : Int)
    (_args : List Text) : Job Unit :=
  setStatus status

/- The programs that are found by their names. -/
def program? : String → Option (List Text → Job Unit)
  | "echo" => some echo
  | "printf" => some printf
  | "test" => some test
  | "[" => some bracket
  | "cat" => some cat
  | "grep" => some grep
  | "egrep" => some fun args => grep ("-E".toList :: args)
  | "fgrep" => some fun args => grep ("-F".toList :: args)
  | "true" => some (quietly 0)
  | "sleep" => some (quietly 0)
  | "false" => some (quietly 1)
  | _ => none

end Shell

end Whittle

------------------------------------------------------------
-- Commands Of The Shell
------------------------------------------------------------

namespace Whittle

namespace Shell

/- The number that an argument gives. -/
def numberOr
    (fallback : Int) : List Text → Option Int
  | [] => some fallback
  | arg :: _ => decimal? arg

/- Leave the shell, a function or a loop. -/
def leave
    (fallback : Int)
    (args : List Text)
    (signal : Int → Signal) : Job Unit := do
  match numberOr fallback args with
  | some n => throw (signal n)
  | none =>
      complain "/bin/sh: 1: Illegal number\n".toList
      throw (.exits 2)

/- The fields of a line for the variables that are read. -/
def lineFields
    (separators : Text) :
    (count : Nat) → Text → List Text
  | 0, _ => []
  | 1, t => [trimWhere separators.contains t]
  | count + 2, t =>
      let t := t.dropWhile separators.contains
      let field := t.takeWhile (!separators.contains ·)
      field ::
        lineFields separators (count + 1) (t.drop field.length)

/- A text without the backslashes that quote something. -/
def withoutBackslashes : Text → Text
  | [] => []
  | '\\' :: c :: rest => c :: withoutBackslashes rest
  | c :: rest => c :: withoutBackslashes rest

/- Read a line into variables. -/
def readVariables
    (args : List Text) : Job Unit := do
  let isRaw := args.contains ['-', 'r']
  let names := (args.filter (·.head? ≠ some '-')).map String.ofList
  let (line, hasEnd) ← readLine
  let line := if isRaw then line else withoutBackslashes line
  let fields := lineFields (← get).separators names.length line
  for (name, field) in names.zip fields do
    modify fun s => s.setVariable name field false
  setStatus (if hasEnd then 0 else 1)

/- The name and the value of an assignment. -/
def assignment
    (arg : Text) : String × Option Text :=
  let name := arg.takeWhile (· ≠ '=')
  let rest := arg.drop name.length
  (String.ofList name, if rest.isEmpty then none else some (rest.drop 1))

/- Set variables, and perhaps export them. -/
def declare
    (exports : Bool)
    (args : List Text) : Job Unit := do
  for arg in args.filter (·.head? ≠ some '-') do
    let (name, value) := assignment arg
    modify fun s =>
      match value, s.get? name with
      | some t, _ => s.setVariable name t exports
      | none, some t => s.setVariable name t exports
      | none, none =>
          if exports then s else s.setVariable name [] exports
  setStatus 0

/- Take variables or functions away. -/
def unset
    (args : List Text) : Job Unit := do
  let asksForFunctions := args.contains ['-', 'f']
  for arg in args.filter (·.head? ≠ some '-') do
    let name := String.ofList arg
    modify fun s =>
      if asksForFunctions then
        { s with functions := s.functions.filter (·.1 ≠ name) }
      else
        s.unset name
  setStatus 0

/- Drop arguments of the script. -/
def shift
    (args : List Text) : Job Unit := do
  match numberOr 1 args with
  | some n =>
      if n.toNat ≤ (← get).arguments.length then
        modify fun s =>
          { s with arguments := s.arguments.drop n.toNat }
        setStatus 0
      else
        complain "/bin/sh: 1: shift: can't shift that many\n".toList
        throw (.exits 2)
  | none => throw (.exits 2)

/- Set the arguments of the script. -/
def setArguments
    (args : List Text) : Job Unit := do
  let options := args.takeWhile fun t =>
    t.head? = some '-' && t ≠ ['-', '-']
  let rest := args.drop options.length
  match rest with
  | [] => pure ()
  | first :: more =>
      let given := if first = ['-', '-'] then more else rest
      modify fun s => { s with arguments := given }
  setStatus 0

/- The number of a signal by its name. -/
def signalNumber? : String → Option Nat
  | "HUP" => some 1
  | "INT" => some 2
  | "QUIT" => some 3
  | "ILL" => some 4
  | "TRAP" => some 5
  | "ABRT" => some 6
  | "BUS" => some 7
  | "FPE" => some 8
  | "KILL" => some 9
  | "USR1" => some 10
  | "SEGV" => some 11
  | "USR2" => some 12
  | "PIPE" => some 13
  | "ALRM" => some 14
  | "TERM" => some 15
  | "CHLD" => some 17
  | "CONT" => some 18
  | "URG" => some 23
  | "XCPU" => some 24
  | "XFSZ" => some 25
  | "WINCH" => some 28
  | "SYS" => some 31
  | s =>
      if "SIG".toList.isPrefixOf s.toList then none else s.toNat?

/- Signals that do not end a process. -/
def isHarmless
    (n : Nat) : Bool :=
  [0, 17, 18, 23, 28].contains n

/- Send a signal to the shell itself. -/
def kill
    (args : List Text) : Job Unit := do
  let (signal, targets) : String × List Text :=
    match args with
    | ['-', 's'] :: name :: rest => (cooked name, rest)
    | ['-', 'n'] :: name :: rest => (cooked name, rest)
    | ('-' :: name) :: rest => (cooked name, rest)
    | _ => ("TERM", args)
  match signalNumber? signal with
  | none => give ⟨[], "/bin/sh: 1: kill: invalid signal\n".toList, 2⟩
  | some n =>
      if targets.contains State.processNumber then
        if isHarmless n then setStatus 0 else throw (.killed n)
      else
        give ⟨[], "/bin/sh: 1: kill: No such process\n".toList, 1⟩

/- The commands that need nothing but the state of the shell. -/
def builtin? : String → Option (List Text → Job Unit)
  | ":" => some (quietly 0)
  | "trap" => some (quietly 0)
  | "wait" => some (quietly 0)
  | "exit" => some fun args => do
      leave (← get).status args fun n => .exits (n % 256)
  | "return" => some fun args => do
      leave (← get).status args fun n => .returns (n % 256)
  | "break" => some fun args =>
      leave 1 args fun n => .breaks n.toNat
  | "continue" => some fun args =>
      leave 1 args fun n => .continues n.toNat
  | "read" => some readVariables
  | "export" => some (declare true)
  | "readonly" => some (declare false)
  | "local" => some (declare false)
  | "unset" => some unset
  | "shift" => some shift
  | "set" => some setArguments
  | "kill" => some kill
  | _ => none

end Shell

end Whittle
