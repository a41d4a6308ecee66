import Whittle.Check.Basic
import Whittle.Check.Verdict
import Whittle.Server.Session
import Whittle.Text.Blank

/-
  Checks that run a command.

  Key definitions include:
    * `Finished.outputs`
    * `Runner`
    * `CommandCheck.Memory`
    * `CommandCheck.ask`
    * `CommandCheck.check`
-/

------------------------------------------------------------
-- Running Commands
------------------------------------------------------------

namespace Whittle

namespace Finished

/- What a finished command has left. -/
def outputs
    (f : Finished) : Outputs :=
  ⟨exitCode f.status, Text.rows f.out, Text.rows f.err⟩

end Finished

/-
  What runs commands.
    * `run` runs a command line to its end, or says why that
      is not possible.
    * `compile` makes what a server needs, and names it.
    * `serve` starts a command as a server.
-/
structure Runner (κ : Type) where
  initial : κ
  run : κ → Value → View → Except Failure Finished × κ
  compile : Except ServerError String
  serve : List String → Environment → Disk → Except Failure Process
  environment : Environment

end Whittle

------------------------------------------------------------
-- The Memory Of A Check
------------------------------------------------------------

namespace Whittle

namespace CommandCheck

/-
  What a check remembers: the memory of its runner, whether
  it has started, its server, and how many commands have run
  and met the expectation.
-/
structure Memory (κ : Type) where
  runner : κ
  isStarted : Bool
  server : Option ServerSession
  spawned : Nat
  fruitful : Nat

/- The shell that a command line is run by. -/
def shellCommand
    (line : String) : List String :=
  ["/bin/sh", "-c", line]

variable {κ : Type}

def startServer
    (r : Runner κ)
    (c : CheckedCommand)
    (m : Memory κ)
    (v : View) : Except Failure Unit × Memory κ × Notices :=
  match r.compile with
  | .error e => (.error (.server e), m, .none)
  | .ok preloaded =>
      let line := "LD_PRELOAD=" ++ preloaded ++ " " ++ c.line.display
      let environment :=
        serverEnvironment (v.files.map FilePath.text)
          c.childTimeout.display r.environment
      match r.serve (shellCommand line) environment v.disk with
      | .error e => (.error e, m, .none)
      | .ok p =>
          let (result, session, complaint) :=
            ServerSession.initial.start p
          match result with
          | .error e => (.error (.server e), m, ⟨[], complaint⟩)
          | .ok () =>
              (.ok (), { m with server := some session },
                ⟨["Connected to fork server."], []⟩)

def start
    (r : Runner κ)
    (c : CheckedCommand)
    (m : Memory κ)
    (v : View) : Except Failure Unit × Memory κ × Notices :=
  let m := { m with isStarted := true }
  if c.usesServer then
    startServer r c m v
  else
    (.ok (), m, .none)

end CommandCheck

end Whittle

------------------------------------------------------------
-- Questions
------------------------------------------------------------

namespace Whittle

namespace CommandCheck

variable {κ : Type}

/- Run the command, by the server if there is one. -/
def spawn
    (r : Runner κ)
    (c : CheckedCommand)
    (m : Memory κ)
    (v : View) : Except Failure Outputs × Memory κ :=
  match m.server with
  | some session =>
      let (answer, session) := session.runChild v.disk
      let m := { m with server := some session }
      match answer with
      | .error e => (.error (.server e), m)
      | .ok a => (.ok ⟨a.code, a.out, a.err⟩, m)
  | none =>
      let (result, runner) := r.run m.runner c.line v
      (result.map Finished.outputs, { m with runner := runner })

/-
  Run the command if all files can be parsed, and see whether
  it does what is expected.
-/
def ask
    (r : Runner κ)
    (c : CheckedCommand)
    (m : Memory κ)
    (v : View) : Except Failure Bool × Memory κ :=
  if m.isStarted then
    match v.areParseable () with
    | .error e => (.error e, m)
    | .ok false => (.ok false, m)
    | .ok true =>
        match spawn r c m v with
        | (.error e, m) => (.error e, m)
        | (.ok outputs, m) =>
            let m := { m with spawned := m.spawned + 1 }
            match c.verdict.judge outputs with
            | .error e => (.error e, m)
            | .ok false => (.ok false, m)
            | .ok true =>
                (.ok true, { m with fruitful := m.fruitful + 1 })
  else
    (.error .notSupported, m)

/- End the server of a check. -/
def close
    (m : Memory κ) : Memory κ :=
  { m with server := none }

/- How many commands have run, and how many of them counted. -/
def statistics
    (m : Memory κ) : List (String × Nat) :=
  [("spawn_count", m.spawned), ("fruitful_count", m.fruitful)]

/- What is printed about a check in the end. -/
def summary
    (c : CheckedCommand)
    (m : Memory κ) : List String :=
  let percentage := m.fruitful * 100 / m.spawned
  ["Invariant: " ++ c.verdict.describe,
    "Spawned " ++ toString m.spawned ++ " processes, " ++
      toString m.fruitful ++ " fruitful (" ++
      toString percentage ++ "%)"]

def check
    (r : Runner κ)
    (c : CheckedCommand) : Check (Memory κ) where
  initial := ⟨r.initial, false, none, 0, 0⟩
  start := start r c
  ask := ask r c
  close := close
  description := c.verdict.describe
  statistics := statistics
  summary := summary c

end CommandCheck

end Whittle
