import Whittle.Proofs.Session.Step

/-
  What holds at every moment of a reduction.

  Key definitions include:
    * `Moment.IsSound`
    * `Session.IsKept`

  Main statements:
    * `Session.IsKept.step`
    * `Session.IsKept.follows`

  Trials leave files in states that nobody has accepted.  The
  invariant therefore speaks of the files only so far as they
  can be restored, and of the moments that have been noted.
-/

------------------------------------------------------------
-- Sound Moments
------------------------------------------------------------

namespace Whittle

/- All files can be read into trees from some contents. -/
def SourceRules.AreReadable
    (r : SourceRules)
    (ps : List FilePath)
    (cs : List Bytes) : Prop :=
  List.Forall₂ r.IsReadable ps cs

instance
    (r : SourceRules)
    (ps : List FilePath)
    (cs : List Bytes) : Decidable (r.AreReadable ps cs) :=
  inferInstanceAs (Decidable (List.Forall₂ r.IsReadable ps cs))

/-
  The check says yes to some contents of some files: it does
  so with some memory, on a disk whose files hold them.
-/
def Setup.Passes
    {σ τ : Type}
    (u : Setup σ τ)
    (ps : List FilePath)
    (cs : List Bytes) : Prop :=
  ∃ (memory : σ) (v : View),
    v.files = ps ∧ v.disk.Holds ps cs ∧
      (u.check.ask memory v).1 = .ok true

namespace Moment

/-
  What is known of a moment, given those before it.  What has
  been accepted can be read, and the check has just said yes
  to it, unless it is the first or was forced.
-/
def IsSound
    {σ τ : Type}
    (u : Setup σ τ)
    (mayForce : Prop)
    (ps : List FilePath) : Moment → List Moment → Prop
  | accepted cs, older =>
      u.rules.AreReadable ps cs ∧
        (older = [] ∨
          older.head? = some (.asked cs (some true)) ∨
          older.head? = some (.forced cs))
  | asked cs (some true), _ => u.Passes ps cs
  | forced _, _ => mayForce
  | _, _ => True

/- Every moment is sound, given those before it. -/
def AreSound
    {σ τ : Type}
    (u : Setup σ τ)
    (mayForce : Prop)
    (ps : List FilePath) : List Moment → Prop :=
  AllAlong (IsSound u mayForce ps)

end Moment

end Whittle

------------------------------------------------------------
-- The Invariant
------------------------------------------------------------

namespace Whittle

namespace Session

variable {σ τ : Type} {u : Setup σ τ} {mayForce : Prop}

/- The contents that have been accepted last. -/
def lastAccepted
    (s : Session σ τ) : Option (List Bytes) :=
  s.trail.findSome? Moment.accepted?

/-
  What holds at every moment of a reduction.
    * `distinct`, `apart` : no file is another one, or one of
      the log.
    * `files` : no file is missing.
    * `snapshots`, `accepted` : every file has contents that
      were accepted, all of them at the last such moment.
    * `sound` : what has happened so far is sound.
-/
structure IsKept
    (u : Setup σ τ)
    (mayForce : Prop)
    (s : Session σ τ) : Prop where
  distinct : FilePath.AreDistinct s.paths
  apart : ∀ p ∈ s.paths, u.log.IsApart p
  files : ∀ p ∈ s.paths, s.disk.IsFile p
  snapshots : s.workspace.scratches.map (·.snapshot) =
    s.workspace.snapshots.map some
  accepted : s.lastAccepted = some s.workspace.snapshots
  sound : Moment.AreSound u mayForce s.paths s.trail

end Session

namespace Workspace

variable {r : SourceRules} {w w' : Workspace}

/- What has been accepted can be read. -/
theorem Commits.areReadable
    {cs : List Bytes}
    (hCommits : w.Commits r w')
    (hHolds : w.host.disk.Holds w.paths cs) :
    r.AreReadable w.paths cs := by
  obtain ⟨_, hAll, _⟩ := hCommits
  unfold paths at hHolds ⊢
  generalize w.scratches = ss at hAll hHolds ⊢
  generalize w'.scratches = ss' at hAll
  generalize w.host.disk = d at hAll hHolds
  induction hAll generalizing cs with
  | nil =>
      cases hHolds
      exact .nil
  | cons hAccepts _ ih =>
      obtain ⟨bs, p, identity, hReads, rfl⟩ := hAccepts
      rw [List.map_cons] at hHolds
      cases hHolds with
      | cons hRead hRest =>
          rw [hReads.bytes] at hRead
          cases hRead
          exact .cons ⟨p, hReads.tree⟩ (ih hRest)

theorem Refuses.not_areReadable
    {cs : List Bytes}
    (hRefuses : w.Refuses r w')
    (hHolds : w.host.disk.Holds w.paths cs) :
    ¬ r.AreReadable w.paths cs := by
  obtain ⟨_, _, s, hs, hNone⟩ := hRefuses
  intro hReadable
  unfold paths at hHolds hReadable
  generalize w.scratches = ss at hs hHolds hReadable
  generalize w.host.disk = d at hHolds hNone
  induction ss generalizing cs with
  | nil => cases hs
  | cons s' rest ih =>
      rw [List.map_cons] at hHolds hReadable
      cases hHolds with
      | cons hRead hRest =>
          obtain ⟨⟨p, hTree⟩, hReadableRest⟩ :=
            List.forall₂_cons.mp hReadable
          rcases List.mem_cons.mp hs with rfl | hMem
          · exact hNone ⟨_, p, hRead, hTree⟩
          · exact ih hMem hReadableRest hRest

/- Files that are refused keep what was accepted of them. -/
theorem Refuses.snapshot_eq
    (hRefuses : w.Refuses r w') :
    w'.scratches.map (·.snapshot) =
      w.scratches.map (·.snapshot) := by
  obtain ⟨_, hForget, _⟩ := hRefuses
  rw [hForget, List.map_map]
  rfl

end Workspace

namespace Session

variable {σ τ : Type} {u : Setup σ τ} {mayForce : Prop}

/- A moment at which nothing is accepted keeps the invariant. -/
theorem IsKept.note
    {s t : Session σ τ}
    {m : Moment}
    (hKept : s.IsKept u mayForce)
    (hWorkspace : t.workspace = s.workspace)
    (hTrail : t.trail = m :: s.trail)
    (hMoment : m.accepted? = none)
    (hSound : m.IsSound u mayForce s.paths s.trail) :
    t.IsKept u mayForce := by
  have hPaths : t.paths = s.paths := by
    unfold paths
    rw [hWorkspace]
  constructor
  · rw [hPaths]
    exact hKept.distinct
  · rw [hPaths]
    exact hKept.apart
  · unfold disk
    rw [hPaths, hWorkspace]
    exact hKept.files
  · rw [hWorkspace]
    exact hKept.snapshots
  · unfold lastAccepted
    rw [hTrail, hWorkspace, List.findSome?_cons, hMoment]
    exact hKept.accepted
  · rw [hPaths, hTrail]
    exact ⟨hSound, hKept.sound⟩

/- The invariant is kept where all but the host stays. -/
theorem IsKept.write
    {s : Session σ τ}
    {h : Host}
    (hKept : s.IsKept u mayForce)
    (hGrows : s.workspace.host.Grows h) :
    (s.withHost h).IsKept u mayForce where
  distinct := hKept.distinct
  apart := hKept.apart
  files := fun p hp => hGrows.files p (hKept.files p hp)
  snapshots := hKept.snapshots
  accepted := hKept.accepted
  sound := hKept.sound

/- Files that are refused keep the invariant. -/
theorem IsKept.refuse
    {s : Session σ τ}
    {w : Workspace}
    (hKept : s.IsKept u mayForce)
    (hRefuses : s.workspace.Refuses u.rules w) :
    IsKept u mayForce { s with workspace := w } := by
  have hPaths := hRefuses.paths_eq
  have hSnapshots :
      w.scratches.map (·.snapshot) =
        s.workspace.snapshots.map some := by
    rw [hRefuses.snapshot_eq, hKept.snapshots]
  have hEq := Workspace.snapshots_eq hSnapshots
  constructor
  · unfold paths
    rw [hPaths]
    exact hKept.distinct
  · unfold paths
    rw [hPaths]
    exact hKept.apart
  · unfold paths disk
    rw [hPaths, hRefuses.1]
    exact hKept.files
  · rw [hEq]
    exact hSnapshots
  · rw [hEq]
    exact hKept.accepted
  · unfold paths
    rw [hPaths]
    exact hKept.sound

/-
  Files that are accepted have the invariant if what happened
  before is sound and leads up to it.
-/
theorem isKept_of_commits
    {s : Session σ τ}
    {w : Workspace}
    {cs : List Bytes}
    (hDistinct : FilePath.AreDistinct s.paths)
    (hApart : ∀ p ∈ s.paths, u.log.IsApart p)
    (hCommits : s.workspace.Commits u.rules w)
    (hHolds : s.Holds cs)
    (hHead : s.trail = [] ∨
      s.trail.head? = some (.asked cs (some true)) ∨
      s.trail.head? = some (.forced cs))
    (hSound : Moment.AreSound u mayForce s.paths s.trail) :
    (s.afterAccepting w cs).IsKept u mayForce := by
  have hPaths : (s.afterAccepting w cs).paths = s.paths :=
    hCommits.paths_eq
  have hSnapshots := hCommits.snapshot_eq hHolds
  have hEq : (s.afterAccepting w cs).workspace.snapshots = cs :=
    Workspace.snapshots_eq hSnapshots
  constructor
  · rw [hPaths]
    exact hDistinct
  · rw [hPaths]
    exact hApart
  · rw [hPaths]
    unfold disk afterAccepting
    rw [hCommits.1]
    exact Disk.Holds.isFile hHolds
  · rw [hEq]
    exact hSnapshots
  · rw [hEq]
    rfl
  · rw [hPaths]
    exact ⟨⟨hCommits.areReadable hHolds, hHead⟩, hSound⟩

theorem IsKept.step
    {s t : Session σ τ}
    (hKept : s.IsKept u mayForce)
    (hStep : Step u mayForce s t) :
    t.IsKept u mayForce := by
  cases hStep with
  | write h hGrows => exact hKept.write hGrows
  | remind memory =>
      exact ⟨hKept.distinct, hKept.apart, hKept.files,
        hKept.snapshots, hKept.accepted, hKept.sound⟩
  | remember memory =>
      exact ⟨hKept.distinct, hKept.apart, hKept.files,
        hKept.snapshots, hKept.accepted, hKept.sound⟩
  | skip cs hHolds hShort hKnown =>
      exact hKept.note rfl rfl rfl trivial
  | ask cs hHolds hShort hNew =>
      refine hKept.note rfl rfl rfl ?_
      rcases hAnswer : (s.answer u).1 with e | b
      · trivial
      · cases b with
        | false => trivial
        | true => exact ⟨s.check, view u s, rfl, hHolds, hAnswer⟩
  | force cs hForce hHolds =>
      exact hKept.note rfl rfl rfl hForce
  | refuse w hRefuses => exact hKept.refuse hRefuses
  | accept w cs hCommits hHolds hHead =>
      exact isKept_of_commits hKept.distinct hKept.apart
        hCommits hHolds (.inr hHead) hKept.sound

theorem IsKept.follows
    {s t : Session σ τ}
    (hKept : s.IsKept u mayForce)
    (hFollows : Follows u mayForce s t) :
    t.IsKept u mayForce := by
  induction hFollows with
  | refl => exact hKept
  | tail _ hStep ih => exact ih.step hStep

end Session

end Whittle
