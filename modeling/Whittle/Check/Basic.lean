import Whittle.Host

/-
  Properties that a reduction keeps.

  Key definitions include:
    * `View`
    * `Check`
    * `Check.always`
-/

------------------------------------------------------------
-- Checks
------------------------------------------------------------

namespace Whittle

/-
  What a check may look at: the disk, the files that are
  reduced, and whether all of them can be parsed.
-/
structure View where
  disk : Disk
  files : List FilePath
  areParseable : Unit → Except Failure Bool

/- The lines that a check prints, and its warnings. -/
structure Notices where
  printed : List String
  warned : List String
deriving DecidableEq, Repr, Inhabited

namespace Notices

/- Nothing to print. -/
def none : Notices :=
  ⟨[], []⟩

end Notices

/-
  A check with a memory.  `start` comes before the first
  question and `close` after the last one.  What a check says
  may depend on all questions before.
-/
structure Check (σ : Type) where
  initial : σ
  start : σ → View → Except Failure Unit × σ × Notices
  ask : σ → View → Except Failure Bool × σ
  close : σ → σ
  description : String
  statistics : σ → List (String × Nat)
  summary : σ → List String

namespace Check

/- The check that every state passes. -/
def always : Check Unit where
  initial := ()
  start := fun _ _ => (.ok (), (), .none)
  ask := fun _ _ => (.ok true, ())
  close := id
  description := "Dummy invariant (always satisfied)"
  statistics := fun _ => []
  summary := fun _ => []

end Check

end Whittle
