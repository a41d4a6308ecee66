import Whittle.Check.Command
import Whittle.Session.Run
import Whittle.Settings.CommandLine
import Whittle.Strategy.Choice

/-
  The program: a reduction as settings or a command line
  describe it.

  Key definitions include:
    * `Surroundings`
    * `Ending`
    * `reduceFiles`
    * `Settings.reduce`
    * `Exit`
    * `runArguments`
-/

------------------------------------------------------------
-- Reductions
------------------------------------------------------------

namespace Whittle

/-
  What a program is run with: what runs commands, the time,
  whether the surroundings ask for events on the output, what
  settings are read with, and the languages that there are.
-/
structure Surroundings (κ : Type) where
  runner : Runner κ
  clock : Clock
  streamSetting : Option String
  reader : SettingsReader
  languages : List FrontEnd

/-
  What is left of a reduction: its result, the files, the
  memory of what runs commands, and the number of snapshots
  that have not been given up.
-/
structure Ending (κ : Type) where
  result : Except Failure Report
  host : Host
  runner : κ
  snapshots : Nat

variable {κ σ τ : Type}

/- Open files and reduce them. -/
def openAndRun
    (u : Setup σ τ)
    (fs : List FilePair) : Work (Session σ τ) Report := do
  Session.openFiles u fs
  Session.run u

/-
  A reduction of some files.  `runnerOf` gives the memory of
  what runs commands.
-/
def reduceFiles
    (u : Setup σ τ)
    (runnerOf : σ → κ)
    (fs : List FilePair)
    (h : Host) : Ending κ :=
  let (result, s) := openAndRun u fs (Session.initial u h)
  { result := result
    host := s.workspace.host
    runner := runnerOf s.check
    snapshots :=
      s.workspace.scratches.countP fun f => f.snapshot.isSome }

/- An ending before any file has been opened. -/
def Ending.early
    (w : Surroundings κ)
    (h : Host)
    (e : Failure) : Ending κ :=
  ⟨.error e, h, w.runner.initial, 0⟩

namespace Settings

/- A reduction with a known check. -/
def reduceWith
    (s : Settings)
    (w : Surroundings κ)
    (frontEnd : FrontEnd)
    (strategy : StrategyChoice)
    (check : Check σ)
    (runnerOf : σ → κ)
    (h : Host) : Ending κ :=
  let rules : SourceRules :=
    ⟨frontEnd, w.reader.codecs.charset s.charset,
      s.validatesNodes.isTrue⟩
  let streams :=
    s.log.streams.isTrue || RunLog.asksForStream w.streamSetting
  match RunLog.create w.clock s.log.directory none streams h with
  | (.error e, h) => .early w h e
  | (.ok log, h) =>
      match strategy with
      | .greedy =>
          reduceFiles ⟨rules, check, greedy, log⟩ runnerOf s.files h
      | .query q =>
          reduceFiles ⟨rules, check, byQuery q, log⟩ runnerOf s.files
            h

/- The reduction that settings describe. -/
def reduce
    (s : Settings)
    (w : Surroundings κ)
    (h : Host) : Ending κ :=
  match FrontEnd.named w.languages s.language with
  | .error e => .early w h e
  | .ok frontEnd =>
      match s.check.choose with
      | .error e => .early w h e
      | .ok check =>
          match s.strategy.choose with
          | .error e => .early w h e
          | .ok strategy =>
              match check with
              | .always =>
                  s.reduceWith w frontEnd strategy Check.always
                    (fun _ => w.runner.initial) h
              | .command c =>
                  s.reduceWith w frontEnd strategy
                    (CommandCheck.check w.runner c)
                    CommandCheck.Memory.runner h

end Settings

end Whittle

------------------------------------------------------------
-- Command Lines
------------------------------------------------------------

namespace Whittle

/-
  How a program ends: with a status, with a failure that is
  not caught, or at once because of its arguments.
-/
inductive Exit where
| status (code : Nat)
| uncaught (e : Failure)
| usage (stop : UsageStop)

namespace Exit

/- The status of a failure that is caught, and its title. -/
def caught? : Failure → Option (Nat × String)
  | .settings _ => some (2, "Configuration error: ")
  | .aborted _ _ => some (1, "Error: ")
  | .server _ => some (1, "Error: ")
  | _ => none

/- The exit after a result, and the warning that goes with it. -/
def ofResult
    {α : Type} : Except Failure α → Exit × Option String
  | .ok _ => (.status 0, none)
  | .error e =>
      match caught? e with
      | some (code, title) =>
          (.status code, some (title ++ e.message?.getD ""))
      | none => (.uncaught e, none)

end Exit

variable {κ : Type}

/- The reduction that the choices of a command line describe. -/
def reduceChoices
    (w : Surroundings κ)
    (choices : List (Choice × Value))
    (h : Host) : Ending κ :=
  match Settings.ofChoices w.reader h.disk choices with
  | .error e => .early w h e
  | .ok s =>
      match s.validate with
      | .error e => .early w h e
      | .ok () => s.reduce w h

/- Run the program with some arguments. -/
def runArguments
    (w : Surroundings κ)
    (arguments : List String)
    (h : Host) : Exit × Ending κ :=
  match readArguments arguments with
  | .error stop => (.usage stop, .early w h .unmet)
  | .ok choices =>
      let ending := reduceChoices w choices h
      let (exit, warning) := Exit.ofResult ending.result
      let host :=
        match warning with
        | none => ending.host
        | some line =>
            { ending.host with
              warned := line :: ending.host.warned }
      (exit, { ending with host := host })

end Whittle
