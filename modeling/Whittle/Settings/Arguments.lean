import Whittle.Text.Digit
import Whittle.Text.Quoted
import Whittle.Value.Basic

/-
  The arguments of a command line.

  Key definitions include:
    * `Choice`
    * `OptionRule`
    * `UsageStop`
    * `readArguments`

  Options may be shortened as long as they stay distinct, and
  may carry their value behind an equals sign.  No argument
  stands without an option.
-/

------------------------------------------------------------
-- Options
------------------------------------------------------------

namespace Whittle

/- What an option chooses. -/
inductive Choice where
| help
| settingsFile
| language
| charset
| inputFile
| outputFile
| strategy
| query
| check
| commandLine
| server
| childTimeout
| minReturn
| maxReturn
| exactReturn
| message
| noValidation
| logDirectory
| logStream
deriving DecidableEq, Repr, Inhabited

/- What an option has after it. -/
inductive OptionForm where
| flag
| text
| number
deriving DecidableEq, Repr, Inhabited

/- An option with all of its names. -/
structure OptionRule where
  choice : Choice
  names : List String
  form : OptionForm
deriving DecidableEq, Repr, Inhabited

namespace OptionRule

def all : List OptionRule :=
  [⟨.help, ["-h", "--help"], .flag⟩,
    ⟨.settingsFile, ["--config"], .text⟩,
    ⟨.language, ["--language", "-l"], .text⟩,
    ⟨.charset, ["--charset", "--encoding", "-e"], .text⟩,
    ⟨.inputFile, ["--input-file", "-i"], .text⟩,
    ⟨.outputFile, ["--output-file", "-o"], .text⟩,
    ⟨.strategy, ["--strategy", "-S"], .text⟩,
    ⟨.query, ["--query-expression"], .text⟩,
    ⟨.check, ["--invariant", "-I"], .text⟩,
    ⟨.commandLine, ["--command-line"], .text⟩,
    ⟨.server, ["--forkserver"], .flag⟩,
    ⟨.childTimeout, ["--forkserver-child-timeout"], .number⟩,
    ⟨.minReturn, ["--min-return"], .number⟩,
    ⟨.maxReturn, ["--max-return"], .number⟩,
    ⟨.exactReturn, ["--exact-return"], .number⟩,
    ⟨.message, ["--printed-message"], .text⟩,
    ⟨.noValidation, ["--no-validate-nodes"], .flag⟩,
    ⟨.logDirectory, ["--log-dir"], .text⟩,
    ⟨.logStream, ["--log-stream"], .flag⟩]

def named : List (String × OptionRule) :=
  all.flatMap fun rule => rule.names.map (·, rule)

end OptionRule

end Whittle

------------------------------------------------------------
-- Reasons To Stop
------------------------------------------------------------

namespace Whittle

/- Why the arguments are not acted upon. -/
inductive UsageStop where
| help
| ambiguous (argument : String) (names : List String)
| valueMissing (rule : OptionRule)
| valueUnexpected (rule : OptionRule) (value : String)
| invalidNumber (rule : OptionRule) (value : String)
| unrecognized (arguments : List String)
deriving DecidableEq, Repr

namespace UsageStop

/- A complaint about the value of an option. -/
def about
    (rule : OptionRule)
    (complaint : String) : String :=
  "argument " ++ "/".intercalate rule.names ++ ": " ++ complaint

/- The complaint, if there is one. -/
def message? : UsageStop → Option String
  | help => none
  | ambiguous argument names =>
      some
        ("ambiguous option: " ++ argument ++ " could match " ++
          ", ".intercalate names)
  | valueMissing rule => some (about rule "expected one argument")
  | valueUnexpected rule value =>
      some (about rule ("ignored explicit argument " ++ quote value))
  | invalidNumber rule value =>
      some (about rule ("invalid int value: " ++ quote value))
  | unrecognized arguments =>
      some
        ("unrecognized arguments: " ++ " ".intercalate arguments)

/- The name under which the program complains. -/
def programName : String :=
  "source-minimizer"

/- The complaint as the program prints it. -/
def line?
    (e : UsageStop) : Option String :=
  e.message?.map fun m => programName ++ ": error: " ++ m

/- The status that the program ends with. -/
def status : UsageStop → Nat
  | help => 0
  | _ => 2

end UsageStop

end Whittle

------------------------------------------------------------
-- Kinds Of Arguments
------------------------------------------------------------

namespace Whittle

/-
  What an argument is by itself: an option, maybe with a
  value behind it, something that looks like an option, the
  two dashes that end the options, or anything else.
-/
inductive Argument where
| option (name : String) (rule : OptionRule) (value : Option String)
| strange
| dashes
| plain
deriving DecidableEq, Repr, Inhabited

/- A text up to its first equals sign, and what follows it. -/
def splitAtEquals
    (t : Text) : Text × Option String :=
  match splitAtFirst? ['='] t with
  | none => (t, none)
  | some (before, after) => (before, some (String.ofList after))

/- The options whose names a long argument starts. -/
def longCandidates
    (t : Text) : List (String × OptionRule × Option String) :=
  let (start, value) := splitAtEquals t
  (OptionRule.named.filter fun (name, _) =>
    start.isPrefixOf name.toList).map fun (name, rule) =>
      (name, rule, value)

/- The options whose letter an argument starts with. -/
def letterCandidates
    (t : Text) : List (String × OptionRule × Option String) :=
  (OptionRule.named.filter fun (name, _) =>
    name.toList = t.take 2).map fun (name, rule) =>
      (name, rule, some (String.ofList (t.drop 2)))

/- A number with a minus sign is not taken for an option. -/
def isNegativeNumber : Text → Bool
  | '-' :: rest =>
      let after := rest.dropWhile isDecimal
      match after with
      | [] => !rest.isEmpty
      | '.' :: places =>
          !places.isEmpty && places.all isDecimal
      | _ => false
  | _ => false

/- What an argument is, or the names that it may stand for. -/
def classify
    (argument : String) : Except UsageStop Argument :=
  let t := argument.toList
  let (start, value) := splitAtEquals t
  match t with
  | '-' :: second :: _ =>
      match OptionRule.named.lookup argument,
          OptionRule.named.lookup (String.ofList start) with
      | some rule, _ => .ok (.option argument rule none)
      | none, some rule =>
          .ok (.option (String.ofList start) rule value)
      | none, none =>
          let candidates :=
            if second = '-' then
              longCandidates t
            else
              letterCandidates t
          match candidates with
          | [(name, rule, value)] => .ok (.option name rule value)
          | _ :: _ =>
              .error (.ambiguous argument (candidates.map (·.1)))
          | [] =>
              if isNegativeNumber t || t.contains ' ' then
                .ok .plain
              else
                .ok .strange
  | _ => .ok .plain

/-
  All arguments with what they are.  After two dashes there
  are no options.
-/
def classifyAll :
    List String → Except UsageStop (List (String × Argument))
  | [] => .ok []
  | argument :: rest =>
      if argument = "--" then
        .ok ((argument, .dashes) :: rest.map (·, .plain))
      else do
        let kind ← classify argument
        let more ← classifyAll rest
        pure ((argument, kind) :: more)

end Whittle

------------------------------------------------------------
-- Reading
------------------------------------------------------------

namespace Whittle

/- The value of an option in its proper form. -/
def OptionRule.valueOf
    (rule : OptionRule)
    (value : String) : Except UsageStop Value :=
  match rule.form with
  | .number =>
      match Text.readInteger? value.toList with
      | some n => .ok (.number n)
      | none => .error (.invalidNumber rule value)
  | _ => .ok (.text value)

/- The value of an option without one. -/
def OptionRule.flagValue
    (rule : OptionRule) : Except UsageStop Value :=
  match rule.choice with
  | .help => .error .help
  | .noValidation => .ok (.flag false)
  | _ => .ok (.flag true)

/- A flag with letters behind it stands for several flags. -/
def readLetters :
    (rule : OptionRule) → Text →
      Except UsageStop (List (OptionRule × Option String))
  | rule, [] => .ok [(rule, none)]
  | rule, c :: rest =>
      match rule.form with
      | .flag =>
          match OptionRule.named.lookup (String.ofList ['-', c]) with
          | none =>
              .error
                (.valueUnexpected rule (String.ofList (c :: rest)))
          | some next => do
              let more ← readLetters next rest
              pure ((rule, none) :: more)
      | _ => .ok [(rule, some (String.ofList (c :: rest)))]

/- The options that one argument with a value stands for. -/
def optionsOf
    (name : String)
    (rule : OptionRule)
    (value : String) :
    Except UsageStop (List (OptionRule × Option String)) :=
  if rule.form = .flag then
    if name.length = 2 && !value.isEmpty then
      readLetters rule value.toList
    else
      .error (.valueUnexpected rule value)
  else
    .ok [(rule, some value)]

/- What has been chosen, and what is not recognized. -/
structure Chosen where
  choices : List (Choice × Value)
  strange : List String
deriving Inhabited

/- Read options whose values are known. -/
def chooseAll :
    List (OptionRule × Option String) →
      Except UsageStop (List (Choice × Value))
  | [] => .ok []
  | (rule, value) :: rest => do
      let v ←
        match value with
        | some value => rule.valueOf value
        | none =>
            if rule.form = .flag then
              rule.flagValue
            else
              .error (.valueMissing rule)
      let more ← chooseAll rest
      pure ((rule.choice, v) :: more)

/- The last of some options, if its value has to follow. -/
def waitingOption?
    (options : List (OptionRule × Option String)) :
    Option OptionRule :=
  match options.getLast? with
  | some (rule, none) => if rule.form = .flag then none else some rule
  | _ => none

/- Read arguments from left to right. -/
def readFrom
    (chosen : Chosen) :
    List (String × Argument) → Except UsageStop Chosen
  | [] => .ok chosen
  | (argument, kind) :: rest =>
      match kind with
      | .option name rule (some value) => do
          let options ← optionsOf name rule value
          match waitingOption? options, rest with
          | none, _ => pure ()
          | some _, (_, .plain) :: _ => pure ()
          | some waiting, _ => throw (.valueMissing waiting)
          let more ← chooseAll options
          readFrom
            { chosen with choices := chosen.choices ++ more } rest
      | .option _ rule none =>
          if rule.form = .flag then do
            let v ← rule.flagValue
            readFrom
              { chosen with
                choices := chosen.choices ++ [(rule.choice, v)] }
              rest
          else
            match rest with
            | (value, .plain) :: rest => do
                let v ← rule.valueOf value
                readFrom
                  { chosen with
                    choices := chosen.choices ++ [(rule.choice, v)] }
                  rest
            | _ => .error (.valueMissing rule)
      | _ =>
          readFrom
            { chosen with strange := chosen.strange ++ [argument] }
            rest

/- What the arguments of a command line choose, in order. -/
def readArguments
    (arguments : List String) :
    Except UsageStop (List (Choice × Value)) := do
  let kinds ← classifyAll arguments
  let chosen ← readFrom ⟨[], []⟩ kinds
  if chosen.strange.isEmpty then
    pure chosen.choices
  else
    throw (.unrecognized chosen.strange)

end Whittle
