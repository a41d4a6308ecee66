import Std.Time.Format
import Whittle.Program
import Whittle.Server.Preload
import Whittle.Shell.Run
import Whittle.Standard

/-
  The command line of the program.

  The files below the working directory are the files of the
  run.  What the run has changed is written back in the end.
  Commands are run by the shell of this library.

  Key definitions include:
    * `main`
-/

------------------------------------------------------------
-- Files
------------------------------------------------------------

namespace Whittle

namespace CommandLine

/- The bytes of a file on the real disk. -/
def readReal
    (name : String) : IO Bytes := do
  let contents ← IO.FS.readBinFile name
  pure contents.toList

/- Write a file on the real disk, with its directory. -/
def writeReal
    (name : String)
    (contents : Bytes) : IO Unit := do
  let parent := (FilePath.ofText name).parent
  IO.FS.createDirAll parent.text
  IO.FS.writeBinFile name ⟨contents.toArray⟩

/-
  The files of a directory and of those in it.  Directories
  with a hidden name are left alone.
-/
partial def readBelow
    (directory : String) : IO (List (String × Bytes)) := do
  let start ← IO.FS.realPath directory
  let entries ← start.readDir
  let mut found := []
  for entry in entries do
    let name := directory ++ "/" ++ entry.fileName
    if ← entry.path.isDir then
      if !entry.fileName.startsWith "." then
        found := found ++ (← readBelow name)
    else
      found := found ++ [(name, ← readReal name)]
  pure found

/- Write the files that differ from what they have been. -/
def writeChanges
    (before after : Disk) : IO Unit := do
  for (name, contents) in after.files do
    let isSame :=
      match before.read (.ofText name) with
      | .ok old => old = contents
      | .error _ => false
    if !isSame then
      writeReal name contents

end CommandLine

end Whittle

------------------------------------------------------------
-- The Program
------------------------------------------------------------

namespace Whittle

namespace CommandLine

/- The time in the forms that a log needs. -/
def readClock : IO Clock := do
  let now ← Std.Time.Timestamp.now
  let milliseconds := now.toMillisecondsSinceUnixEpoch.val
  let wall : Std.Time.WallTime :=
    .ofNanoseconds ⟨now.toNanosecondsSinceUnixEpoch.val⟩
  let date := Std.Time.PlainDateTime.ofWallTime wall
  let stamp := date.format "uuuu-MM-dd'T'HH:mm:ss.SSS"
  pure
    { seconds := .decimal ⟨milliseconds, 3⟩
      stamp := stamp ++ "+00:00"
      run := date.format "uuuuMMdd-HHmmss" }

/- The variables that commands are run with. -/
def readEnvironment : IO Environment := do
  let mut found := []
  for name in ["PATH", "HOME", "LANG"] do
    if let some value ← IO.getEnv name then
      found := found ++ [(name, value)]
  pure found

/- What runs the commands of a run. -/
def shellRunner
    (environment : Environment)
    (compiler : String) : Runner Unit where
  initial := ()
  run := fun _ line v => (Shell.runLine v.disk environment line, ())
  compile :=
    (compilePreload (Shell.runToEnd · environment .empty)
      compiler).result
  serve := Shell.launch
  environment := environment

/- What a run is surrounded by. -/
def readSurroundings : IO (Surroundings Unit) := do
  let environment ← readEnvironment
  let compiler ← IO.getEnv "CC"
  let streams ← IO.getEnv "SOURCE_MINIMIZER_LOG_STREAM"
  let clock ← readClock
  pure
    { runner := shellRunner environment (compiler.getD "cc")
      clock := clock
      streamSetting := streams
      reader := .standard
      languages := standardLanguages }

/- Print how a run has ended, and give its status. -/
def report : Exit → IO UInt32
  | .status code => pure code.toUInt32
  | .usage stop => do
      match stop.line? with
      | some line => IO.eprintln line
      | none => IO.println ("usage: " ++ UsageStop.programName)
      pure stop.status.toUInt32
  | .uncaught e => do
      IO.eprintln (e.message?.getD "the run has failed")
      pure 1

end CommandLine

end Whittle

/- Run the program with the arguments of its command line. -/
def main
    (arguments : List String) : IO UInt32 := do
  let surroundings ← Whittle.CommandLine.readSurroundings
  let files ← Whittle.CommandLine.readBelow "."
  let disk := Whittle.Disk.ofFiles files
  let (exit, ending) :=
    Whittle.runArguments surroundings arguments (.ofDisk disk)
  Whittle.CommandLine.writeChanges disk ending.host.disk
  IO.print ending.host.stdout
  IO.eprint ending.host.stderr
  Whittle.CommandLine.report exit
