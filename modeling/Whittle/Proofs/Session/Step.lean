import Mathlib.Logic.Relation
import Whittle.Proofs.Scratch.Committing
import Whittle.Proofs.Scratch.Fingerprint

/-
  What a session can do in one step.

  Key definitions include:
    * `Session.Step`
    * `Session.Follows`
    * `Session.IsSettled`

  Main statements:
    * `Session.ends_acceptAll`
    * `Session.Follows.paths_eq`

  A run is a chain of these steps.  What holds at every moment
  of a run is shown for one step, and for chains of steps by
  induction.
-/

------------------------------------------------------------
-- Looking At A Session
------------------------------------------------------------

namespace Whittle

namespace Session

variable {σ τ : Type}

/- The disk that the files of a session lie on. -/
def disk
    (s : Session σ τ) : Disk :=
  s.workspace.host.disk

/- The paths of the files of a session, in order. -/
def paths
    (s : Session σ τ) : List FilePath :=
  s.workspace.paths

/- The files of a session hold some contents. -/
def Holds
    (s : Session σ τ)
    (cs : List Bytes) : Prop :=
  s.disk.Holds s.paths cs

/- The same session on another host. -/
def withHost
    (s : Session σ τ)
    (h : Host) : Session σ τ :=
  { s with workspace := { s.workspace with host := h } }

/- What the check answers to a question, and its new memory. -/
def answer
    (u : Setup σ τ)
    (s : Session σ τ) : Except Failure Bool × σ :=
  u.check.ask s.check (view u s)

/- The session after its files held contents that are known. -/
def afterSkipping
    (s : Session σ τ)
    (cs : List Bytes) : Session σ τ :=
  { s with
    skipped := s.skipped + 1
    trail := .skipped cs :: s.trail }

/- The session after the check has been asked about contents. -/
def afterAsking
    (u : Setup σ τ)
    (s : Session σ τ)
    (cs : List Bytes) : Session σ τ :=
  { s with
    known := Workspace.fingerprint cs :: s.known
    trials := s.trials + 1
    check := (s.answer u).2
    trail := .asked cs (s.answer u).1.toOption :: s.trail }

/- The session after contents have been forced. -/
def afterForcing
    (s : Session σ τ)
    (cs : List Bytes) : Session σ τ :=
  { s with trail := .forced cs :: s.trail }

/- The session after contents have been accepted. -/
def afterAccepting
    (s : Session σ τ)
    (w : Workspace)
    (cs : List Bytes) : Session σ τ :=
  { s with
    workspace := w
    roots := w.roots
    trail := .accepted cs :: s.trail }

/- The files hold what the last moment was about. -/
def IsSettled
    (s : Session σ τ) : Prop :=
  ∃ m rest, s.trail = m :: rest ∧ s.Holds m.contents

end Session

end Whittle

------------------------------------------------------------
-- Moments
------------------------------------------------------------

namespace Whittle

namespace Moment

/- The contents that are accepted at a moment. -/
def accepted? : Moment → Option (List Bytes)
  | accepted cs => some cs
  | _ => none

/- Every moment is as `P` says, given those before it. -/
def AllAlong
    (P : Moment → List Moment → Prop) : List Moment → Prop
  | [] => True
  | m :: older => P m older ∧ AllAlong P older

variable {P : Moment → List Moment → Prop}

theorem AllAlong.of_append
    {newer older : List Moment}
    (hAll : AllAlong P (newer ++ older)) :
    AllAlong P older := by
  induction newer with
  | nil => exact hAll
  | cons m rest ih => exact ih hAll.2

/- What holds along a run holds of each moment. -/
theorem AllAlong.of_split
    {later older : List Moment}
    {m : Moment}
    (hAll : AllAlong P (later ++ m :: older)) :
    P m older :=
  hAll.of_append.1

end Moment

end Whittle

------------------------------------------------------------
-- Steps
------------------------------------------------------------

namespace Whittle

namespace Session

variable {σ τ : Type}

/-
  The steps of a session.  Cuts without a question are steps
  only if they are allowed.
    * `write` : something is written or printed.
    * `remind` : the check remembers something.
    * `remember` : the strategy remembers something.
    * `skip` : the contents of the files are known.
    * `ask` : the check is asked about contents that are new.
    * `force` : nodes have been cut without a question.
    * `refuse` : the files cannot all be read.
    * `accept` : what the files hold is accepted, directly
      after the check said yes to it or it was forced.
-/
inductive Step
    (u : Setup σ τ)
    (mayForce : Prop) :
    Session σ τ → Session σ τ → Prop
| write (s : Session σ τ) (h : Host)
    (hGrows : s.workspace.host.Grows h) :
    Step u mayForce s (s.withHost h)
| remind (s : Session σ τ) (memory : σ) :
    Step u mayForce s { s with check := memory }
| remember (s : Session σ τ) (memory : τ) :
    Step u mayForce s { s with strategy := memory }
| skip (s : Session σ τ) (cs : List Bytes)
    (hHolds : s.Holds cs)
    (hShort : Workspace.AreShort cs)
    (hKnown : Workspace.fingerprint cs ∈ s.known) :
    Step u mayForce s (s.afterSkipping cs)
| ask (s : Session σ τ) (cs : List Bytes)
    (hHolds : s.Holds cs)
    (hShort : Workspace.AreShort cs)
    (hNew : Workspace.fingerprint cs ∉ s.known) :
    Step u mayForce s (s.afterAsking u cs)
| force (s : Session σ τ) (cs : List Bytes)
    (hForce : mayForce)
    (hHolds : s.Holds cs) :
    Step u mayForce s (s.afterForcing cs)
| refuse (s : Session σ τ) (w : Workspace)
    (hRefuses : s.workspace.Refuses u.rules w) :
    Step u mayForce s { s with workspace := w }
| accept (s : Session σ τ) (w : Workspace) (cs : List Bytes)
    (hCommits : s.workspace.Commits u.rules w)
    (hHolds : s.Holds cs)
    (hHead : s.trail.head? = some (.asked cs (some true)) ∨
      s.trail.head? = some (.forced cs)) :
    Step u mayForce s (s.afterAccepting w cs)

/- Any number of steps. -/
def Follows
    (u : Setup σ τ)
    (mayForce : Prop) :
    Session σ τ → Session σ τ → Prop :=
  Relation.ReflTransGen (Step u mayForce)

variable {u : Setup σ τ} {mayForce : Prop}

instance : Std.Refl (Follows u mayForce) :=
  ⟨fun _ => .refl⟩

instance : IsTrans (Session σ τ) (Follows u mayForce) :=
  ⟨fun _ _ _ h₁ h₂ => Relation.ReflTransGen.trans h₁ h₂⟩

theorem Step.follows
    {s t : Session σ τ}
    (hStep : Step u mayForce s t) :
    Follows u mayForce s t :=
  .single hStep

end Session

end Whittle

------------------------------------------------------------
-- Paths Stay
------------------------------------------------------------

namespace Whittle

namespace Session

variable {σ τ : Type} {u : Setup σ τ} {mayForce : Prop}

theorem Step.paths_eq
    {s t : Session σ τ}
    (hStep : Step u mayForce s t) :
    t.paths = s.paths := by
  cases hStep with
  | write => rfl
  | remind => rfl
  | remember => rfl
  | skip => rfl
  | ask => rfl
  | force => rfl
  | refuse w hRefuses => exact hRefuses.paths_eq
  | accept w cs hCommits => exact hCommits.paths_eq

theorem Follows.paths_eq
    {s t : Session σ τ}
    (hFollows : Follows u mayForce s t) :
    t.paths = s.paths := by
  induction hFollows with
  | refl => rfl
  | tail _ hStep ih => rw [hStep.paths_eq, ih]

end Session

end Whittle

------------------------------------------------------------
-- Files Stay
------------------------------------------------------------

namespace Whittle

namespace Session

variable {σ τ : Type} {u : Setup σ τ} {mayForce : Prop}

theorem Step.grows
    {s t : Session σ τ}
    (hStep : Step u mayForce s t) :
    s.disk.Grows t.disk := by
  cases hStep with
  | write h hGrows => exact hGrows
  | remind => exact s.disk.grows_refl
  | remember => exact s.disk.grows_refl
  | skip => exact s.disk.grows_refl
  | ask => exact s.disk.grows_refl
  | force => exact s.disk.grows_refl
  | refuse w hRefuses =>
      have hDisk : w.host.disk = s.disk := hRefuses.1
      exact hDisk ▸ s.disk.grows_refl
  | accept w cs hCommits =>
      have hDisk : (s.afterAccepting w cs).disk = s.disk :=
        hCommits.1
      rw [hDisk]
      exact s.disk.grows_refl

theorem Follows.grows
    {s t : Session σ τ}
    (hFollows : Follows u mayForce s t) :
    s.disk.Grows t.disk := by
  induction hFollows with
  | refl => exact s.disk.grows_refl
  | tail _ hStep ih => exact ih.trans hStep.grows

end Session

end Whittle

------------------------------------------------------------
-- Accepting
------------------------------------------------------------

namespace Whittle

namespace Session

open Work

variable {σ τ : Type} {u : Setup σ τ}

/-
  Accepting all files: they are all accepted, with what they
  hold, or none of them is.
-/
theorem ends_acceptAll
    (s : Session σ τ) :
    Ends (acceptAll u) s
      (fun isAccepted t =>
        if isAccepted then
          ∃ w cs, s.workspace.Commits u.rules w ∧ s.Holds cs ∧
            t = s.afterAccepting w cs
        else
          ∃ w, s.workspace.Refuses u.rules w ∧
            t = { s with workspace := w })
      (fun _ t =>
        ∃ w, s.workspace.Refuses u.rules w ∧
          t = { s with workspace := w }) := by
  unfold acceptAll
  apply ends_bind
  apply ends_onFiles
  refine (Workspace.ends_commitAll s.workspace).mono ?_ ?_
  · intro roots? w hCommit
    cases roots? with
    | none => exact ends_pure ⟨w, hCommit, rfl⟩
    | some roots =>
        obtain ⟨hCommits, rfl⟩ := hCommit
        obtain ⟨cs, hHolds⟩ := hCommits.holds
        have hSnapshots :=
          Workspace.snapshots_eq (hCommits.snapshot_eq hHolds)
        apply ends_bind
        apply ends_modify
        apply ends_bind
        apply ends_get
        apply ends_bind
        apply ends_modify
        refine ends_pure ⟨w, cs, hCommits, hHolds, ?_⟩
        unfold afterAccepting
        dsimp only
        rw [hSnapshots]
  · exact fun _ w hRefuses => ⟨w, hRefuses, rfl⟩

/-
  Accepting all files: it fails as reading them does, unless
  one of them has no tree.
-/
theorem ends_acceptAll_readAll
    (s : Session σ τ) :
    Ends (acceptAll u) s
      (fun isAccepted _ =>
        if isAccepted then
          ∃ ps, s.workspace.readAll u.rules = .ok ps
        else
          s.workspace.readAll u.rules = .error .unparsable)
      (fun e _ => s.workspace.readAll u.rules = .error e ∧
        e ≠ .unparsable) := by
  have hCommit := Workspace.commitAll_eq u.rules s.workspace
  unfold acceptAll
  apply ends_bind
  apply ends_onFiles
  cases hAll : s.workspace.readAll u.rules with
  | ok ps =>
      rw [hAll] at hCommit
      obtain ⟨w, hRun, _⟩ := hCommit
      apply ends_of_eq_ok hRun
      apply ends_bind
      apply ends_modify
      apply ends_bind
      apply ends_get
      apply ends_bind
      apply ends_modify
      exact ends_pure ⟨ps, rfl⟩
  | error e =>
      rw [hAll] at hCommit
      obtain ⟨w, n, hRun, _⟩ := hCommit
      by_cases hUnparsable : e = .unparsable
      · subst hUnparsable
        apply ends_of_eq_ok hRun
        exact ends_pure rfl
      · have hRefusal : Workspace.refusal e = .error e := by
          cases e <;> first | rfl | exact absurd rfl hUnparsable
        rw [hRefusal] at hRun
        apply ends_of_eq_error hRun
        exact ⟨rfl, hUnparsable⟩

end Session

end Whittle
