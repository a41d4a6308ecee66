import Whittle.Host
import Whittle.Text.Blank
import Whittle.Value.Json

/-
  The log of a run.

  Key definitions include:
    * `Clock`
    * `RunLog`
    * `RunLog.create`
    * `RunLog.event`
    * `RunLog.store`

  Events go to a file with one line for each of them, and to
  the output if they are streamed there.
-/

------------------------------------------------------------
-- Logs
------------------------------------------------------------

namespace Whittle

/-
  The time of a run: seconds as a value, the same moment as
  text, and the name that a run gets by it.
-/
structure Clock where
  seconds : Value
  stamp : String
  run : String
deriving Inhabited

/- Where the events of a run go. -/
structure RunLog where
  clock : Clock
  directory : Option FilePath
  streams : Bool
deriving Inhabited

namespace RunLog

/- The words that ask for events on the output. -/
def streamWords : List String :=
  ["1", "true", "yes", "on", "enable", "enabled"]

/- A setting of the surroundings asks for events on the output. -/
def asksForStream
    (setting : Option String) : Bool :=
  let word := Text.strip (setting.getD "").toList
  streamWords.contains (String.ofList word).toLower

/- The directory that a value names, if it names one. -/
def directoryOf
    (v : Value) : Except Failure (Option FilePath) :=
  match v with
  | .null => .ok none
  | .text s => .ok (some (.ofText s))
  | _ => .error .wrongKind

/- Make a directory that may be there already. -/
def makeDirectory
    (p : FilePath) : Work Host Unit := do
  let h ← get
  let d ← Host.orFail (h.disk.makeDirectory p)
  set { h with disk := d }

/-
  A log in a directory of its own, or without files.  `run`
  names the directory; otherwise the clock does.
-/
def create
    (clock : Clock)
    (base : Value)
    (run : Option String)
    (streams : Bool) : Work Host RunLog := do
  match directoryOf base with
  | .error e => throw e
  | .ok none => pure ⟨clock, none, streams⟩
  | .ok (some base) =>
      makeDirectory base
      let directory := base.child (run.getD clock.run)
      makeDirectory directory
      pure ⟨clock, some directory, streams⟩

end RunLog

end Whittle

------------------------------------------------------------
-- Events
------------------------------------------------------------

namespace Whittle

namespace RunLog

/- What is logged together with an event. -/
abbrev Data :=
  List (String × Value)

/- Named values as one value. -/
def dataValue
    (data : Data) : Value :=
  .mapping (data.map fun (k, v) => (.text k, v))

/- The line of an event in the file of events. -/
def line
    (clock : Clock)
    (kind : String)
    (data : Data) : Text :=
  (dataValue
    [("ts", clock.seconds), ("ts_iso", .text clock.stamp),
      ("kind", .text kind), ("data", dataValue data)]).json

/- The values that are shown on the output, in this order. -/
def shownKeys : List String :=
  ["pass_number", "outcome", "satisfied", "size"]

/- An event as the output shows it. -/
def shown
    (clock : Clock)
    (kind : String)
    (data : Data) : String :=
  let values :=
    shownKeys.filterMap fun key =>
      (data.lookup key).map fun v => key ++ "=" ++ v.display ++ " "
  let message :=
    "[" ++ clock.stamp ++ "] " ++ kind ++ " " ++ String.join values
  String.ofList (Text.strip message.toList)

def event
    (l : RunLog)
    (kind : String)
    (data : Data) : Work Host Unit := do
  match l.directory with
  | none => pure ()
  | some directory =>
      let h ← get
      let written := Utf8.encode (line l.clock kind data ++ ['\n'])
      let d ←
        Host.orFail
          (h.disk.append (directory.child "events.ndjson") written)
      set { h with disk := d }
  if l.streams then
    Host.print (shown l.clock kind data)

end RunLog

end Whittle

------------------------------------------------------------
-- Files
------------------------------------------------------------

namespace Whittle

namespace RunLog

/- The path of a file of the log. -/
def pathFor
    (l : RunLog)
    (name suffix : String) : Option FilePath :=
  l.directory.map (·.child (name ++ "." ++ suffix))

/- Store a value in a file of the log, and log that. -/
def store
    (l : RunLog)
    (name : String)
    (v : Value) : Work Host (Option FilePath) := do
  match l.pathFor name "json" with
  | none => pure none
  | some path =>
      Host.writeBytes path (Utf8.encode v.jsonSorted)
      l.event "file.write"
        [("name", .text name), ("path", .text path.text)]
      pure (some path)

end RunLog

end Whittle
