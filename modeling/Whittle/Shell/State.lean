import Whittle.Shell.Raw
import Whittle.Shell.Script
import Whittle.Shell.Talk

/-
  The state of a shell, and work that changes it.

  Key definitions include:
    * `Sink`
    * `Source`
    * `State`
    * `Signal`
    * `Job`
    * `write`
    * `readLine`
    * `isolated`
    * `captured`
-/

------------------------------------------------------------
-- States
------------------------------------------------------------

namespace Whittle

namespace Shell

/- Where something that is written goes to. -/
inductive Sink where
| buffer (i : Nat)
| file (p : FilePath)
| nowhere
deriving DecidableEq, Repr

/-
  Where something that is read comes from: requests that are
  waited for, or a text that is known.
-/
inductive Source where
| requests
| text (rest : Text)
deriving DecidableEq, Repr

/- A variable.  If it is exported, other programs see it. -/
structure Variable where
  name : String
  value : Text
  isExported : Bool
deriving DecidableEq, Repr, Inhabited

/-
  The state of a shell.  The first two buffers hold what has
  been written to its two outputs, the others what is read
  by the shell itself.
-/
structure State where
  settings : List Variable
  functions : List (String × Script)
  arguments : List Text
  name : Text
  status : Int
  substituted : Option Int
  source : Source
  out : Sink
  err : Sink
  buffers : List Text
  disk : Disk

namespace State

/- A shell that has just started. -/
def initial
    (e : Environment)
    (source : Source)
    (d : Disk) : State where
  settings := e.map fun (name, value) =>
    ⟨name, rawString value, true⟩
  functions := []
  arguments := []
  name := "sh".toList
  status := 0
  substituted := none
  source := source
  out := .buffer 0
  err := .buffer 1
  buffers := [[], []]
  disk := d

/- The value of a variable, if it is set. -/
def get?
    (s : State)
    (name : String) : Option Text :=
  (s.settings.find? (·.name = name)).map (·.value)

/- Set a variable; it stays exported if it has been. -/
def setVariable
    (s : State)
    (name : String)
    (value : Text)
    (exports : Bool) : State :=
  if s.settings.any (·.name = name) then
    { s with
      settings := s.settings.map fun v =>
        if v.name = name then
          ⟨name, value, v.isExported || exports⟩
        else
          v }
  else
    { s with settings := s.settings ++ [⟨name, value, exports⟩] }

/- Take a variable away. -/
def unset
    (s : State)
    (name : String) : State :=
  { s with settings := s.settings.filter (·.name ≠ name) }

/- Give a variable back what it was in an older state. -/
def restored
    (s old : State)
    (name : String) : State :=
  match old.settings.find? (·.name = name) with
  | none => s.unset name
  | some v =>
      let s := s.unset name
      { s with settings := s.settings ++ [v] }

/- The characters that split fields. -/
def separators
    (s : State) : Text :=
  (s.get? "IFS").getD " \t\n".toList

/- The number of the process, as the script sees it. -/
def processNumber : Text :=
  "4711".toList

/- The value of a parameter, if it is set. -/
def parameter?
    (s : State)
    (name : String) : Option Text :=
  match name with
  | "?" => some (toString s.status).toList
  | "#" => some (toString s.arguments.length).toList
  | "$" => some processNumber
  | "0" => some s.name
  | "-" => some []
  | "!" => none
  | "@" | "*" =>
      if s.arguments.isEmpty then
        none
      else
        some (List.intercalate [' '] s.arguments)
  | _ =>
      match name.toNat? with
      | some i => s.arguments[i - 1]?
      | none => s.get? name

/- What has been written to the two outputs. -/
def written
    (s : State) : Bytes × Bytes :=
  (rawBytes (s.buffers.getD 0 []), rawBytes (s.buffers.getD 1 []))

/- The contents of a file. -/
def contents
    (s : State)
    (name : Text) : Except DiskError Text :=
  (s.disk.read (rawPath name)).map rawText

end State

end Shell

end Whittle

------------------------------------------------------------
-- Jobs
------------------------------------------------------------

namespace Whittle

namespace Shell

/-
  What ends a part of a script early.
    * `exits` ends the shell, `killed` does so by a signal.
    * `returns` ends a function.
    * `breaks` ends loops, `continues` goes on with the next
      round of one.
-/
inductive Signal where
| exits (status : Int)
| killed (number : Nat)
| returns (status : Int)
| breaks (levels : Nat)
| continues (levels : Nat)
deriving DecidableEq, Repr

/- Work of a shell. -/
abbrev Job (α : Type) :=
  ExceptT Signal (StateT State Talk) α

/- Set the status of the last command. -/
def setStatus
    (n : Int) : Job Unit :=
  modify fun s => { s with status := n }

/- Write a text to a sink. -/
def writeTo
    (sink : Sink)
    (t : Text) : Job Unit :=
  match sink with
  | .buffer i =>
      modify fun s => { s with buffers := s.buffers.modify i (· ++ t) }
  | .file p =>
      modify fun s =>
        { s with
          disk := (s.disk.append p (rawBytes t)).toOption.getD s.disk }
  | .nowhere => pure ()

/- Write a text to the first output. -/
def write
    (t : Text) : Job Unit := do
  writeTo (← get).out t

/- Write a text to the second output. -/
def complain
    (t : Text) : Job Unit := do
  writeTo (← get).err t

/-
  Wait for a request.  What has been written until then is
  handed over, and the files are those of that moment.
-/
def awaitRequest : Job Unit :=
  fun s =>
    let (out, err) := s.written
    .waiting out err fun d =>
      .done
        (.ok (),
          { s with
            disk := d
            buffers := [[], []] ++ s.buffers.drop 2 })

/-
  Read a line.  The flag tells whether it has had an end.  A
  request is an empty line.
-/
def readLine : Job (Text × Bool) := do
  match (← get).source with
  | .requests =>
      awaitRequest
      pure ([], true)
  | .text t =>
      let line := t.takeWhile (· ≠ '\n')
      let rest := t.drop line.length
      modify fun s => { s with source := .text (rest.drop 1) }
      pure (line, !rest.isEmpty)

/- Read all that is left.  Requests are waited for in vain. -/
def readAll : Job Text := do
  match (← get).source with
  | .requests =>
      awaitRequest
      pure ['\n']
  | .text t =>
      modify fun s => { s with source := .text [] }
      pure t

/- The status that a signal leaves behind. -/
def statusAfter
    (s : State) : Signal → Int
  | .exits n => n
  | .killed n => -n
  | .returns n => n
  | .breaks _ => s.status
  | .continues _ => s.status

/-
  Do work whose changes of variables, functions, arguments
  and streams are forgotten.  Only a signal that kills the
  shell goes further.
-/
def isolated
    (job : Job Unit) : Job Unit := do
  let before ← get
  let status ←
    try
      job
      pure (← get).status
    catch
      | .killed n => throw (.killed n)
      | signal => pure (statusAfter (← get) signal)
  modify fun s =>
    { before with
      status := status
      source := s.source
      buffers := s.buffers
      disk := s.disk }

/- Do isolated work, and take what it writes. -/
def captured
    (job : Job Unit) : Job Text := do
  let before ← get
  let i := before.buffers.length
  modify fun s =>
    { s with buffers := s.buffers ++ [[]], out := .buffer i }
  isolated job
  let t := (← get).buffers.getD i []
  modify fun s =>
    { s with buffers := s.buffers.take i, out := before.out }
  pure t

/- Do isolated work that reads a text. -/
def fed
    (t : Text)
    (job : Job Unit) : Job Unit := do
  let before ← get
  modify fun s => { s with source := .text t }
  isolated job
  modify fun s => { s with source := before.source }

end Shell

end Whittle

------------------------------------------------------------
-- Redirections
------------------------------------------------------------

namespace Whittle

namespace Shell

/- What a redirection does with a stream. -/
inductive RedirectKind where
| reads
| writes
| adds
| follows
deriving DecidableEq, Repr

/- A redirection whose target is known. -/
structure Redirection where
  kind : RedirectKind
  stream : Nat
  target : Text
deriving DecidableEq, Repr

/- Let a stream lead to a sink. -/
def setSink
    (stream : Nat)
    (sink : Sink) : Job Unit :=
  modify fun s =>
    match stream with
    | 1 => { s with out := sink }
    | 2 => { s with err := sink }
    | _ => s

/- The sink of a file that is written to. -/
def openSink?
    (target : Text)
    (adds : Bool) : Job (Option Sink) := do
  let s ← get
  match cooked target with
  | "/dev/null" => pure (some .nowhere)
  | "/dev/stdout" => pure (some s.out)
  | "/dev/stderr" => pure (some s.err)
  | _ =>
      let p := rawPath target
      let opened := if adds then s.disk.append p [] else s.disk.write p []
      match opened with
      | .ok d =>
          set { s with disk := d }
          pure (some (.file p))
      | .error _ => pure none

/- Apply a redirection, and tell whether that is possible. -/
def applyRedirection
    (r : Redirection) : Job Bool := do
  let s ← get
  match r.kind with
  | .reads =>
      match cooked r.target, s.contents r.target with
      | "/dev/null", _ =>
          set { s with source := .text [] }
          pure true
      | "/dev/stdin", _ => pure true
      | _, .ok t =>
          set { s with source := .text t }
          pure true
      | _, .error _ => pure false
  | .writes | .adds =>
      match ← openSink? r.target (r.kind = .adds) with
      | some sink =>
          setSink r.stream sink
          pure true
      | none => pure false
  | .follows =>
      match cooked r.target with
      | "-" =>
          if r.stream = 0 then
            set { s with source := .text [] }
          else
            setSink r.stream .nowhere
          pure true
      | "0" => pure (r.stream = 0)
      | "1" =>
          setSink r.stream s.out
          pure true
      | "2" =>
          setSink r.stream s.err
          pure true
      | _ => pure false

/- Apply redirections up to the first one that fails. -/
def applyRedirections : List Redirection → Job Bool
  | [] => pure true
  | r :: rest => do
      let isGood ← applyRedirection r
      if isGood then
        applyRedirections rest
      else
        complain
          ("/bin/sh: 1: cannot open ".toList ++ r.target ++
            ": No such file\n".toList)
        pure false

/- Let the streams lead where they have led before. -/
def restoreStreams
    (before : State)
    (rs : List Redirection) : Job Unit :=
  modify fun s =>
    { s with
      out := before.out
      err := before.err
      source :=
        if rs.any (·.stream = 0) then before.source else s.source }

/- Do work with redirections. -/
def withRedirections
    (rs : List Redirection)
    (job : Job Unit) : Job Unit := do
  let before ← get
  let isGood ← applyRedirections rs
  if isGood then
    try
      job
    catch signal =>
      restoreStreams before rs
      throw signal
  else
    setStatus 2
  restoreStreams before rs

end Shell

end Whittle
