import Whittle.Check.Command
import Whittle.Shell.Reader
import Whittle.Shell.Tools

/-
  Running shell scripts, for the command line of this library.

  Commands of a reduction are run by `/bin/sh` and by programs
  that it finds.  This shell, and its few tools, stand for
  them when the library itself is run.  A reduction takes any
  runner of commands, and no theorem is about this one.

  Key definitions include:
    * `runScript`
    * `runLine`
    * `launch`

  `fuel` bounds the depth of a script and the rounds of its
  loops.
-/

------------------------------------------------------------
-- Values
------------------------------------------------------------

namespace Whittle

namespace Shell

def valueGlyphs
    (isQuoted : Bool)
    (t : Text) : List Glyph :=
  t.map (if isQuoted then .quoted else .value)

/- The glyphs of the arguments, each one a field of its own. -/
def argumentGlyphs
    (isQuoted : Bool)
    (args : List Text) : List Glyph :=
  List.intercalate [.border]
    (args.map fun arg =>
      if isQuoted then
        .nothing :: valueGlyphs true arg
      else
        valueGlyphs false arg)

def parameterGlyphs
    (s : State)
    (name : String)
    (isQuoted : Bool) : List Glyph :=
  if name = "@" || (name = "*" && !isQuoted) then
    argumentGlyphs isQuoted s.arguments
  else
    valueGlyphs isQuoted ((s.parameter? name).getD [])

/-
  What a pattern takes from one end of a text: the shortest
  or the longest part that fits.
-/
def withoutPattern
    (sign : Text)
    (pattern : List Glob)
    (t : Text) : Text :=
  let sizes := List.range (t.length + 1)
  let atStart : Bool := sign.head? = some '#'
  let fits (n : Nat) : Bool :=
    if atStart then
      Glob.fits pattern (t.take n)
    else
      Glob.fits pattern (t.drop (t.length - n))
  let ordered := if sign.length > 1 then sizes.reverse else sizes
  match ordered.find? fits with
  | none => t
  | some n => if atStart then t.drop n else t.take (t.length - n)

/- The value of an expression, which may set variables. -/
def calculate
    (t : Text) : Job Text := do
  let s ← get
  let lookup (name : String) : Option Int :=
    let value := (s.get? name).getD []
    if value.isEmpty then
      some 0
    else
      ((natural? value).map Int.ofNat).or (decimal? value)
  match (Formula.ofText? t).bind fun f => f.evaluate lookup [] with
  | some (n, settings) =>
      modify fun s =>
        settings.foldr
          (fun (name, n) s =>
            s.setVariable name (toString n).toList false) s
      pure (toString n).toList
  | none =>
      complain "/bin/sh: 1: arithmetic expression\n".toList
      throw (.exits 2)

/- A value without the line ends that it ends with. -/
def withoutLineEnds
    (t : Text) : Text :=
  (t.reverse.dropWhile (· = '\n')).reverse.filter (· ≠ '\x00')

/-
  Find the value for a parameter with a word.  The word is
  only looked at when it is needed.
-/
def valueWithWord
    (name : String)
    (sign : Text)
    (word : Job (List Glyph))
    (isQuoted : Bool) : Job (List Glyph) := do
  let s ← get
  let value := s.parameter? name
  let isColon := sign.head? = some ':'
  let isMissing :=
    match value with
    | none => true
    | some t => isColon && t.isEmpty
  let own := parameterGlyphs s name isQuoted
  match sign.getLast? with
  | some '-' => if isMissing then word else pure own
  | some '+' => if isMissing then pure [] else word
  | some '=' =>
      if isMissing then
        let t := Glyph.textOf (← word)
        modify fun s => s.setVariable name t false
        pure (valueGlyphs isQuoted t)
      else
        pure own
  | some '?' =>
      if isMissing then
        complain
          ("/bin/sh: 1: " ++ name ++ ": parameter not set\n").toList
        throw (.exits 2)
      else
        pure own
  | _ =>
      let pattern := Glob.ofWord (← word)
      pure
        (valueGlyphs isQuoted
          (withoutPattern sign pattern (value.getD [])))

/- Round after round, as long as a condition asks for it. -/
def leavesLoop
    (round : Job Unit) : Job Bool := do
  try
    round
    pure false
  catch
    | .breaks n =>
        if n ≤ 1 then pure true else throw (.breaks (n - 1))
    | .continues n =>
        if n ≤ 1 then pure false else throw (.continues (n - 1))
    | signal => throw signal

/- Give variables values for some work only. -/
def withVariables
    (given : List (String × Text))
    (job : Job Unit) : Job Unit := do
  let before ← get
  let restore : Job Unit :=
    modify fun s =>
      given.foldl (fun s (name, _) => s.restored before name) s
  modify fun s =>
    given.foldl (fun s (name, t) => s.setVariable name t true) s
  try
    job
  catch signal =>
    restore
    throw signal
  restore

/- The last part of the path of a program that is installed. -/
def programName
    (name : String) : String :=
  match (FilePath.ofText name) with
  | ⟨true, ["bin", last]⟩ => last
  | ⟨true, ["usr", "bin", last]⟩ => last
  | _ => name

/- What is left when there is no such command. -/
def notFound
    (name : String) : Job Unit := do
  let p := FilePath.ofText name
  let isPath := name.toList.contains '/'
  if isPath && (← get).disk.contains p then
    complain (rawString ("/bin/sh: 1: " ++ name ++
      ": Permission denied\n"))
    setStatus 126
  else
    complain (rawString ("/bin/sh: 1: " ++ name ++ ": not found\n"))
    setStatus 127

/- What a shell is asked to run. -/
inductive ShellInput where
| line (t name : Text) (args : List Text)
| file (name : Text) (args : List Text)
| standard
deriving Repr

/- The arguments of a shell. -/
def shellInput : List Text → ShellInput
  | [] => .standard
  | ('-' :: letters) :: rest =>
      if letters.contains 'c' then
        match rest with
        | [] => .standard
        | [t] => .line t "sh".toList []
        | t :: name :: args => .line t name args
      else
        shellInput rest
  | name :: args => .file name args

/- The state of a shell that another one has started. -/
def State.started
    (s : State)
    (name : Text)
    (args : List Text) : State :=
  { s with
    settings := s.settings.filter (·.isExported)
    functions := []
    arguments := args
    name := name
    status := 0 }

end Shell

end Whittle

------------------------------------------------------------
-- Scripts
------------------------------------------------------------

namespace Whittle

namespace Shell

mutual

/- The glyphs of a piece of a word. -/
def expandPiece : (fuel : Nat) → Piece → Job (List Glyph)
  | 0, _ => throw (.exits 2)
  | fuel + 1, piece =>
      match piece with
      | .plain t => pure (t.map .plain)
      | .quoted t =>
          pure (if t.isEmpty then [.nothing] else t.map .quoted)
      | .variable name isQuoted => do
          pure (parameterGlyphs (← get) name isQuoted)
      | .size name => do
          let t := ((← get).parameter? name).getD []
          pure (valueGlyphs false (toString t.length).toList)
      | .fallback "" _ word _ => do
          let s ← get
          match word with
          | [_, .variable "@" _] =>
              pure (parameterGlyphs s "@" true)
          | _ => expandWord fuel word
      | .fallback name sign word isQuoted =>
          valueWithWord name sign (expandWord fuel word) isQuoted
      | .output body isQuoted => do
          let t ← captured (runScript fuel body)
          modify fun s => { s with substituted := some s.status }
          pure (valueGlyphs isQuoted (withoutLineEnds t))
      | .arithmetic body => do
          let gs ← expandWord fuel body
          let t ← calculate (Glyph.textOf gs)
          pure (valueGlyphs true t)

/- The glyphs of a word. -/
def expandWord : (fuel : Nat) → Word → Job (List Glyph)
  | 0, _ => throw (.exits 2)
  | _ + 1, [] => pure []
  | fuel + 1, piece :: rest => do
      let first ← expandPiece fuel piece
      let more ← expandWord fuel rest
      pure (first ++ more)

/- The fields of words. -/
def expandFields : (fuel : Nat) → List Word → Job (List Text)
  | 0, _ => throw (.exits 2)
  | _ + 1, [] => pure []
  | fuel + 1, word :: rest => do
      let gs ← expandWord fuel word
      let s ← get
      let first :=
        (fieldsOf s.separators gs).flatMap (textsOfField s.disk)
      let more ← expandFields fuel rest
      pure (first ++ more)

/- The values of assignments. -/
def expandAssignments :
    (fuel : Nat) → List (String × Word) →
      Job (List (String × Text))
  | 0, _ => throw (.exits 2)
  | _ + 1, [] => pure []
  | fuel + 1, (name, word) :: rest => do
      let gs ← expandWord fuel word
      let more ← expandAssignments fuel rest
      pure ((name, Glyph.textOf gs) :: more)

/- The targets of redirections. -/
def expandRedirects :
    (fuel : Nat) → List Redirect → Job (List Redirection)
  | 0, _ => throw (.exits 2)
  | _ + 1, [] => pure []
  | fuel + 1, r :: rest => do
      let (kind, stream, target) :
          RedirectKind × Nat × Word :=
        match r with
        | .reads n t => (.reads, n, t)
        | .writes n t => (.writes, n, t)
        | .adds n t => (.adds, n, t)
        | .follows n t => (.follows, n, t)
      let gs ← expandWord fuel target
      let more ← expandRedirects fuel rest
      pure (⟨kind, stream, Glyph.textOf gs⟩ :: more)

def runScript : (fuel : Nat) → Script → Job Unit
  | 0, _ => throw (.exits 2)
  | fuel + 1, script =>
      match script with
      | .simple assignments words redirects =>
          runSimple fuel assignments words redirects
      | .sequence parts => runSequence fuel parts
      | .both first second => do
          runScript fuel first
          if (← get).status = 0 then
            runScript fuel second
      | .either first second => do
          runScript fuel first
          if (← get).status ≠ 0 then
            runScript fuel second
      | .negated body => do
          runScript fuel body
          setStatus (if (← get).status = 0 then 1 else 0)
      | .pipeline first second => do
          let t ← captured (runScript fuel first)
          fed t (runScript fuel second)
      | .grouped body => runScript fuel body
      | .isolated body => isolated (runScript fuel body)
      | .redirected body redirects => do
          let rs ← expandRedirects fuel redirects
          withRedirections rs (runScript fuel body)
      | .conditional condition yes no => do
          runScript fuel condition
          if (← get).status = 0 then
            runScript fuel yes
          else
            setStatus 0
            runScript fuel no
      | .loop isUntil condition body =>
          runLoop fuel isUntil condition body 0
      | .each name words body => do
          let fields ←
            match words with
            | none => pure (← get).arguments
            | some words => expandFields fuel words
          setStatus 0
          runEach fuel name fields body
      | .choice word arms => do
          let gs ← expandWord fuel word
          setStatus 0
          runArms fuel (Glyph.textOf gs) arms
      | .define name body => do
          modify fun s =>
            { s with
              functions :=
                (name, body) :: s.functions.filter (·.1 ≠ name) }
          setStatus 0

/- Run scripts one after the other. -/
def runSequence : (fuel : Nat) → List Script → Job Unit
  | 0, _ => throw (.exits 2)
  | _ + 1, [] => pure ()
  | fuel + 1, first :: rest => do
      runScript fuel first
      runSequence fuel rest

/- Run a loop.  `status` is what the last round has left. -/
def runLoop :
    (fuel : Nat) → (isUntil : Bool) → Script → Script →
      (status : Int) → Job Unit
  | 0, _, _, _, _ => throw (.exits 2)
  | fuel + 1, isUntil, condition, body, status => do
      let isOver ← leavesLoop do
        runScript fuel condition
        if ((← get).status = 0) = isUntil then
          setStatus status
          throw (.breaks 1)
        runScript fuel body
      if !isOver then
        runLoop fuel isUntil condition body (← get).status

/- Run a script for each of some values of a variable. -/
def runEach :
    (fuel : Nat) → String → List Text → Script → Job Unit
  | 0, _, _, _ => throw (.exits 2)
  | _ + 1, _, [], _ => pure ()
  | fuel + 1, name, t :: rest, body => do
      modify fun s => s.setVariable name t false
      let isOver ← leavesLoop (runScript fuel body)
      if !isOver then
        runEach fuel name rest body

/- Run the first arm that a text fits. -/
def runArms :
    (fuel : Nat) → Text → List (List Word × Script) → Job Unit
  | 0, _, _ => throw (.exits 2)
  | _ + 1, _, [] => pure ()
  | fuel + 1, t, (patterns, body) :: rest => do
      if ← fitsAny fuel t patterns then
        runScript fuel body
      else
        runArms fuel t rest

/- A text fits one of some patterns. -/
def fitsAny : (fuel : Nat) → Text → List Word → Job Bool
  | 0, _, _ => throw (.exits 2)
  | _ + 1, _, [] => pure false
  | fuel + 1, t, word :: rest => do
      let gs ← expandWord fuel word
      if Glob.fits (Glob.ofWord gs) t then
        pure true
      else
        fitsAny fuel t rest

/- Run a simple command. -/
def runSimple :
    (fuel : Nat) → List (String × Word) → List Word →
      List Redirect → Job Unit
  | 0, _, _, _ => throw (.exits 2)
  | fuel + 1, assignments, words, redirects => do
      modify fun s => { s with substituted := none }
      let fields ← expandFields fuel words
      let rs ← expandRedirects fuel redirects
      match fields with
      | [] =>
          withRedirections rs (runAssignments fuel assignments)
          setStatus ((← get).substituted.getD 0)
      | name :: args =>
          let given ← expandAssignments fuel assignments
          if cooked name = "exec" && args.isEmpty then
            let isGood ← applyRedirections rs
            if isGood then setStatus 0 else throw (.exits 2)
          else
            withRedirections rs
              (withVariables given
                (runCommand fuel (cooked name) args))

/- Set variables, each one before the next is looked at. -/
def runAssignments :
    (fuel : Nat) → List (String × Word) → Job Unit
  | 0, _ => throw (.exits 2)
  | _ + 1, [] => pure ()
  | fuel + 1, (name, word) :: rest => do
      let gs ← expandWord fuel word
      modify fun s => s.setVariable name (Glyph.textOf gs) false
      runAssignments fuel rest

/- Run a command by its name. -/
def runCommand :
    (fuel : Nat) → String → List Text → Job Unit
  | 0, _, _ => throw (.exits 2)
  | fuel + 1, name, args => do
      match (← get).functions.lookup name with
      | some body => runFunction fuel body args
      | none =>
          match name, args with
          | "eval", _ => runText fuel (List.intercalate [' '] args)
          | "exec", first :: rest =>
              runProgram fuel (cooked first) rest
              throw (.exits (← get).status)
          | "command", first :: rest =>
              runCommand fuel (cooked first) rest
          | ".", first :: _ =>
              match (← get).contents first with
              | .ok t => runText fuel t
              | .error _ => throw (.exits 2)
          | _, _ =>
              match builtin? name with
              | some job => job args
              | none => runProgram fuel name args

/- Run a function with its arguments. -/
def runFunction :
    (fuel : Nat) → Script → List Text → Job Unit
  | 0, _, _ => throw (.exits 2)
  | fuel + 1, body, args => do
      let before ← get
      let restore : Job Unit :=
        modify fun s => { s with arguments := before.arguments }
      modify fun s => { s with arguments := args }
      try
        runScript fuel body
      catch
        | .returns n => setStatus n
        | signal => do
            restore
            throw signal
      restore

/- Run a program by its name. -/
def runProgram :
    (fuel : Nat) → String → List Text → Job Unit
  | 0, _, _ => throw (.exits 2)
  | fuel + 1, name, args => do
      match programName name with
      | "sh" => runShell fuel args
      | "env" =>
          match args with
          | [] => setStatus 0
          | first :: rest => runProgram fuel (cooked first) rest
      | short =>
          match program? short with
          | some job => job args
          | none => notFound name

/- Run a shell of its own. -/
def runShell : (fuel : Nat) → List Text → Job Unit
  | 0, _ => throw (.exits 2)
  | fuel + 1, args => do
      let start (t name : Text) (args : List Text) : Job Unit := do
        try
          isolated do
            modify fun s => s.started name args
            runText fuel t
        catch
          | .killed n => setStatus (128 + n)
          | signal => throw signal
      match shellInput args with
      | .line t name args => start t name args
      | .file name args =>
          match (← get).contents name with
          | .ok t => start t name args
          | .error _ =>
              complain
                ("sh: 0: cannot open ".toList ++ name ++
                  ": No such file\n".toList)
              setStatus 2
      | .standard =>
          let t ← readAll
          start t "sh".toList []

/- Run the script that a text writes. -/
def runText : (fuel : Nat) → Text → Job Unit
  | 0, _ => throw (.exits 2)
  | fuel + 1, t =>
      match Script.ofText? t with
      | some script => do
          setStatus 0
          runScript fuel script
      | none => do
          complain "/bin/sh: 1: Syntax error\n".toList
          throw (.exits 2)

end

end Shell

end Whittle

------------------------------------------------------------
-- Programs
------------------------------------------------------------

namespace Whittle

namespace Shell

/- The depth and the number of rounds that are allowed. -/
def workBound : Nat :=
  1000000

/- The process of a job. -/
def processOf
    (job : Job Unit)
    (s : State) : Process :=
  Talk.process do
    let (result, s) ← job s
    let status :=
      match result with
      | .ok () => s.status
      | .error signal => statusAfter s signal
    let (out, err) := s.written
    pure (out, err, status)

/- A program of that name is installed. -/
def isInstalled
    (name : String) : Bool :=
  let short := programName name
  short = "sh" || short = "env" || (program? short).isSome

/- The process of a command, if there is such a program. -/
def start
    (argv : List String)
    (e : Environment)
    (source : Source)
    (d : Disk) : Except Failure Process :=
  match argv with
  | [] => .error (.disk ⟨.missing, ""⟩)
  | name :: args =>
      if isInstalled name then
        let s := State.initial e source d
        let job := runProgram workBound name (args.map rawString)
        .ok (processOf job s)
      else
        .error (.disk ⟨.missing, name⟩)

/- Start a command that may wait for requests. -/
def launch
    (argv : List String)
    (e : Environment)
    (d : Disk) : Except Failure Process :=
  start argv e .requests d

/- What a process leaves when nobody makes requests of it. -/
def finished
    (p : Process) : Finished :=
  let text (bs : Bytes) : Text := (decodeLenient bs).unifyLineEnds
  match p with
  | .ended out err status => ⟨status, text out, text err⟩
  | .waiting out err _ => ⟨0, text out, text err⟩

/- Run a command to its end. -/
def runToEnd
    (argv : List String)
    (e : Environment)
    (d : Disk) : Except Failure Finished :=
  (start argv e (.text []) d).map finished

/- Run a command line to its end. -/
def runLine
    (d : Disk)
    (e : Environment)
    (line : Value) : Except Failure Finished :=
  match line with
  | .text s => runToEnd (CommandCheck.shellCommand s) e d
  | _ => .error .wrongKind

end Shell

end Whittle
