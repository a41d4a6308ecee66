import Whittle.Check.Basic
import Whittle.Log
import Whittle.Scratch.Workspace
import Whittle.Strategy.Plan

/-
  The state of a reduction.

  Key definitions include:
    * `Setup`
    * `Moment`
    * `Session`
    * `Session.acceptAll`
    * `Session.openFiles`
-/

------------------------------------------------------------
-- Sessions
------------------------------------------------------------

namespace Whittle

/- What stays the same during a reduction. -/
structure Setup (σ τ : Type) where
  rules : SourceRules
  check : Check σ
  strategy : Strategy τ
  log : RunLog

/-
  What happens to the contents of all files.
    * `skipped` : they are known, so the check is not asked.
    * `asked` : the check is asked, and answers unless it fails.
    * `forced` : nodes are cut out of them without a question.
    * `accepted` : they are what the files go back to from now
      on.
-/
inductive Moment where
| skipped (contents : List Bytes)
| asked (contents : List Bytes) (answer : Option Bool)
| forced (contents : List Bytes)
| accepted (contents : List Bytes)
deriving DecidableEq, Repr

/- The contents that something happens to. -/
def Moment.contents : Moment → List Bytes
  | skipped contents => contents
  | asked contents _ => contents
  | forced contents => contents
  | accepted contents => contents

/-
  What changes during a reduction: the files, their accepted
  trees, the fingerprints of the states that are known, the
  numbers of trials and of skipped ones, the memories of the
  check and of the strategy, and what has happened to the
  contents of the files, the last moment first.
-/
structure Session (σ τ : Type) where
  workspace : Workspace
  roots : List Parsed
  known : List Bytes
  trials : Nat
  skipped : Nat
  check : σ
  strategy : τ
  trail : List Moment

variable {σ τ : Type}

namespace Session

/- The state before any file has been opened. -/
def initial
    (u : Setup σ τ)
    (h : Host) : Session σ τ :=
  { workspace := ⟨h, []⟩
    roots := []
    known := []
    trials := 0
    skipped := 0
    check := u.check.initial
    strategy := u.strategy.initial
    trail := [] }

/- Work on the files of a session. -/
def onFiles
    {α : Type}
    (work : Work Workspace α) : Work (Session σ τ) α :=
  fun s =>
    let (result, workspace) := work s.workspace
    (result, { s with workspace := workspace })

/- Work on the host of a session. -/
def onHost
    {α : Type}
    (work : Work Host α) : Work (Session σ τ) α :=
  onFiles (Workspace.onHost work)

def logEvent
    (u : Setup σ τ)
    (kind : String)
    (data : RunLog.Data) : Work (Session σ τ) Unit :=
  onHost (u.log.event kind data)

/- What the check may look at. -/
def view
    (u : Setup σ τ)
    (s : Session σ τ) : View :=
  { disk := s.workspace.host.disk
    files := s.workspace.scratches.map (·.path)
    areParseable := fun _ =>
      Workspace.areParseable u.rules s.workspace.host
        s.workspace.scratches }

/- The number of bytes that have been accepted. -/
def totalSize
    (s : Session σ τ) : Nat :=
  s.workspace.committedSize

/- The number of nodes of the accepted trees. -/
def totalNodeCount
    (s : Session σ τ) : Nat :=
  total (s.roots.map (·.tree.size))

/- A natural number as a value. -/
def count
    (n : Nat) : Value :=
  .number n

/- Note what happens to the contents of the files. -/
def note
    (m : Moment) : Work (Session σ τ) Unit :=
  modify fun s => { s with trail := m :: s.trail }

end Session

end Whittle

------------------------------------------------------------
-- Accepting
------------------------------------------------------------

namespace Whittle

namespace Session

variable {σ τ : Type}

/-
  Accept the present contents of all files, with their trees,
  if every file can be parsed.
-/
def acceptAll
    (u : Setup σ τ) : Work (Session σ τ) Bool := do
  match ← onFiles (Workspace.commitAll u.rules) with
  | none => pure false
  | some roots =>
      modify fun s => { s with roots := roots }
      let s ← get
      note (.accepted s.workspace.snapshots)
      pure true

end Session

end Whittle

------------------------------------------------------------
-- Opening
------------------------------------------------------------

namespace Whittle

namespace Session

variable {σ τ : Type}

/- Give up the accepted contents of all files. -/
def close : Work (Session σ τ) Unit :=
  modify fun s => { s with workspace := s.workspace.closeAll }

/-
  Copy an input to its output, unless they are the same file,
  and go on with the output.
-/
def openPair
    (f : FilePair) : Work (Session σ τ) Unit := do
  let source := FilePath.ofText f.input
  let target := FilePath.ofText f.output
  if source.resolved ≠ target.resolved then
    tryCatch (onHost (Host.copyFile source target)) fun e => do
      match e with
      | .disk cause =>
          close
          throw (.settings (.cannotCopy source target cause))
      | e => throw e
  onFiles
    (modify fun w =>
      { w with scratches := w.scratches ++ [.create target] })

/-
  Copy all inputs, accept what they hold, and remember it as
  known.
-/
def openFiles
    (u : Setup σ τ)
    (fs : List FilePair) : Work (Session σ τ) Unit := do
  fs.forM openPair
  if ← acceptAll u then
    let contents ← onFiles Workspace.contents
    match Workspace.key contents with
    | .error e => throw e
    | .ok key =>
        modify fun s => { s with known := key :: s.known }
  else
    close
    throw (.settings .unparsableInputs)

end Session

end Whittle
