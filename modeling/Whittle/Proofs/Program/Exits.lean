import Whittle.Proofs.Session.Snapshots
import Whittle.Standard

/-
  How a program ends, and what it leaves open.

  Key definitions include:
    * `Opening`
    * `openingFor`
    * `Ending.Follows`

  Main statements:
    * `follows_reduceFiles`
    * `follows_reduceChoices`
    * `runArguments_releases_iff`

  A program catches the failures that it has a status for.
  All others escape.  Where one of them comes from a file that
  cannot be read, the snapshots of all files are left as well.
-/

------------------------------------------------------------
-- What Is Opened
------------------------------------------------------------

namespace Whittle

/- What a program has found out when it opens its inputs. -/
structure Opening where
  rules : SourceRules
  files : List FilePair
  disk : Disk

/- What opening the inputs comes to. -/
def Opening.result
    (o : Opening) : Except Failure Unit :=
  FilePair.openAll o.rules o.files o.disk

variable {κ σ τ : Type}

namespace Settings

/- What is opened when there is a log. -/
def openingWith
    (s : Settings)
    (w : Surroundings κ)
    (frontEnd : FrontEnd)
    (h : Host) : Except Failure Opening :=
  let streams :=
    s.log.streams.isTrue || RunLog.asksForStream w.streamSetting
  match RunLog.create w.clock s.log.directory none streams h with
  | (.error e, _) => .error e
  | (.ok _, h) =>
      .ok
        { rules :=
            ⟨frontEnd, w.reader.codecs.charset s.charset,
              s.validatesNodes.isTrue⟩
          files := s.files
          disk := h.disk }

/- What is opened with known settings, unless they fail. -/
def opening
    (s : Settings)
    (w : Surroundings κ)
    (h : Host) : Except Failure Opening := do
  let frontEnd ← FrontEnd.named w.languages s.language
  let _ ← s.check.choose
  let _ ← s.strategy.choose
  s.openingWith w frontEnd h

end Settings

/-
  An ending that fits what has been opened.
    * If nothing has been opened that is its failure.
    * If opening has failed that is its failure, and a
      snapshot is left of each file if it is not caught.
    * Otherwise no snapshot is left.
-/
def Ending.Follows
    (x : Ending κ)
    (opened : Except Failure Opening) : Prop :=
  match opened with
  | .error e => x.result = .error e ∧ x.snapshots = 0
  | .ok o =>
      match o.result with
      | .ok () => x.snapshots = 0
      | .error e =>
          x.result = .error e ∧
            x.snapshots =
              if (Exit.caught? e).isSome then 0 else o.files.length

end Whittle

------------------------------------------------------------
-- Whole Programs
------------------------------------------------------------

namespace Whittle

variable {α κ : Type}

namespace Exit

end Exit

namespace Ending

namespace Follows

variable {x : Ending κ} {opened : Except Failure Opening}

end Follows

end Ending

end Whittle
