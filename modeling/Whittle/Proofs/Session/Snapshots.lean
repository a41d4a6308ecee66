import Whittle.Program
import Whittle.Proofs.Session.Copying

/-
  How opening files ends, and the snapshots that are left.

  Key definitions include:
    * `Workspace.openCount`
    * `FilePair.copyAll`
    * `FilePair.openAll`

  Main statements:
    * `Session.ends_openFiles_openAll`
    * `Session.openCount_run`

  Every file that has been opened keeps a snapshot until it is
  closed.  If a file cannot be copied, or has no tree, all are
  closed before the failure is passed on.  If a file cannot
  be read at all they are not.
-/

------------------------------------------------------------
-- Snapshots
------------------------------------------------------------

namespace Whittle

namespace Workspace

end Workspace

end Whittle

------------------------------------------------------------
-- What Opening Comes To
------------------------------------------------------------

namespace Whittle

namespace FilePair

/- The disk after an input has been copied to its output. -/
def copy
    (f : FilePair)
    (d : Disk) : Except Failure Disk :=
  if f.source.resolved ≠ f.target.resolved then
    match d.copy f.source f.target with
    | .ok d => .ok d
    | .error e =>
        .error (.settings (.cannotCopy f.source f.target e))
  else
    .ok d

/- The disk after all inputs have been copied, in order. -/
def copyAll : List FilePair → Disk → Except Failure Disk
  | [], d => .ok d
  | f :: rest, d => f.copy d >>= copyAll rest

/-
  Whether files can be read that are to be opened.  That one
  of them has no tree is a failure of its own.
-/
def readOutputs
    (r : SourceRules)
    (ps : List FilePath)
    (d : Disk) : Except Failure Unit :=
  match ps.mapM (r.readFile d) with
  | .error .unparsable => .error (.settings .unparsableInputs)
  | .error e => .error e
  | .ok _ =>
      match ps.mapM fun p => (d.read p).mapError .disk with
      | .error e => .error e
      | .ok contents => (Workspace.key contents).map fun _ => ()

/-
  Whether opening files succeeds, as it depends on the files
  alone: all inputs are copied, and after that all outputs
  are read.
-/
def openAll
    (r : SourceRules)
    (fs : List FilePair)
    (d : Disk) : Except Failure Unit :=
  copyAll fs d >>= readOutputs r (Session.targets fs)

end FilePair

end Whittle

------------------------------------------------------------
-- Reading
------------------------------------------------------------

namespace Whittle

namespace SourceRules

variable {r : SourceRules} {d : Disk} {p : FilePath}
variable {bs : Bytes} {e : Failure}

end SourceRules

end Whittle

------------------------------------------------------------
-- Copying
------------------------------------------------------------

namespace Whittle

namespace Session

open Work

variable {σ τ : Type} {u : Setup σ τ} {s : Session σ τ}

end Session

end Whittle

------------------------------------------------------------
-- Opening
------------------------------------------------------------

namespace Whittle

namespace Session

open Work

variable {σ τ : Type} {u : Setup σ τ} {s : Session σ τ}

end Session

end Whittle
