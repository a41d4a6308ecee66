import Whittle.Proofs.Scratch.Rewriting
import Whittle.Proofs.Session.Kept
import Whittle.Proofs.Session.Trial

/-
  What the accepted contents, trees and nodes of a session
  have to do with each other.

  Key definitions include:
    * `Session.IsConsistent`
    * `Session.Keeps`
    * `Session.Takes`

  Main statements:
    * `Session.Tries.cases`
    * `Session.Forces.cases`

  A trial or a forced cut either keeps everything that has
  been accepted, or replaces all of it at once.  The session
  is consistent again in both cases.
-/

------------------------------------------------------------
-- Consistent Sessions
------------------------------------------------------------

namespace Whittle

namespace Session

variable {σ τ : Type} {u : Setup σ τ}

/-
  What holds between any two operations of a reduction.
    * `apart` : no file is one of the log.
    * `committed` : all files are committed.
    * `shared` : a file has the same accepted contents under
      all its names.
    * `roots`, `identities` : the accepted trees are those of
      the files, and no two have the same identity.
    * `accepted` : the accepted contents are those of the last
      moment at which something was accepted.
-/
structure IsConsistent
    (u : Setup σ τ)
    (s : Session σ τ) : Prop where
  apart : s.IsApart u
  committed : ∀ f ∈ s.workspace.scratches, ∃ bs p,
    f.IsCommitted u.rules bs p
  shared : ∀ f ∈ s.workspace.scratches,
    ∀ g ∈ s.workspace.scratches,
      f.path.resolved = g.path.resolved → f.snapshot = g.snapshot
  roots : s.roots = s.workspace.roots
  identities : (s.workspace.roots.map (·.tree.identity)).Nodup
  accepted : s.lastAccepted = some s.workspace.snapshots

/-
  The accepted contents and trees are the same.  Nothing has
  been accepted by then, and nothing known has been forgotten.
-/
structure Keeps
    (s t : Session σ τ) : Prop where
  scratches : t.workspace.scratches = s.workspace.scratches
  roots : t.roots = s.roots
  trail : ∃ newer, t.trail = newer ++ s.trail ∧
    ∀ m ∈ newer, m.accepted? = none
  known : ∀ k ∈ s.known, k ∈ t.known

/-
  All files have been accepted with some contents, directly
  after some moment.
-/
structure Takes
    (u : Setup σ τ)
    (s : Session σ τ)
    (m : Moment)
    (cs : List Bytes)
    (t : Session σ τ) : Prop where
  consistent : t.IsConsistent u
  snapshots : t.workspace.snapshots = cs
  paths : t.paths = s.paths
  trail : t.trail = .accepted cs :: m :: s.trail
  quiet : m.accepted? = none

instance : Std.Refl (Keeps (σ := σ) (τ := τ)) :=
  ⟨fun _ => ⟨rfl, rfl, ⟨[], rfl, by simp⟩, fun _ h => h⟩⟩

instance : IsTrans (Session σ τ) Keeps := by
  refine ⟨fun s t v hst htv => ?_⟩
  obtain ⟨newer, hTrail, hQuiet⟩ := hst.trail
  obtain ⟨newer', hTrail', hQuiet'⟩ := htv.trail
  refine ⟨htv.scratches.trans hst.scratches,
    htv.roots.trans hst.roots, ⟨newer' ++ newer, ?_, ?_⟩,
    fun k hk => htv.known k (hst.known k hk)⟩
  · rw [hTrail', hTrail, List.append_assoc]
  · intro m hm
    rcases List.mem_append.mp hm with hNew | hOld
    · exact hQuiet' m hNew
    · exact hQuiet m hOld

/- What was accepted last is the same if nothing is accepted. -/
theorem Keeps.lastAccepted_eq
    {s t : Session σ τ}
    (hKeeps : s.Keeps t) :
    t.lastAccepted = s.lastAccepted := by
  obtain ⟨newer, hTrail, hQuiet⟩ := hKeeps.trail
  unfold lastAccepted
  rw [hTrail, List.findSome?_append,
    List.findSome?_eq_none_iff.mpr hQuiet]
  rfl

/- The accepted contents are the same. -/
theorem Keeps.snapshots_eq
    {s t : Session σ τ}
    (hKeeps : s.Keeps t) :
    t.workspace.snapshots = s.workspace.snapshots := by
  unfold Workspace.snapshots
  rw [hKeeps.scratches]

theorem Keeps.paths_eq
    {s t : Session σ τ}
    (hKeeps : s.Keeps t) :
    t.paths = s.paths := by
  unfold paths Workspace.paths
  rw [hKeeps.scratches]

/- A session that keeps what it has stays consistent. -/
theorem Keeps.isConsistent
    {s t : Session σ τ}
    (hKeeps : s.Keeps t)
    (hConsistent : s.IsConsistent u) :
    t.IsConsistent u := by
  have hRoots : t.workspace.roots = s.workspace.roots := by
    unfold Workspace.roots
    rw [hKeeps.scratches]
  constructor
  · unfold IsApart
    rw [hKeeps.paths_eq]
    exact hConsistent.apart
  · rw [hKeeps.scratches]
    exact hConsistent.committed
  · rw [hKeeps.scratches]
    exact hConsistent.shared
  · rw [hKeeps.roots, hRoots]
    exact hConsistent.roots
  · rw [hRoots]
    exact hConsistent.identities
  · rw [hKeeps.lastAccepted_eq, hKeeps.snapshots_eq]
    exact hConsistent.accepted

theorem keeps_withHost
    (s : Session σ τ)
    (h : Host) :
    s.Keeps (s.withHost h) :=
  ⟨rfl, rfl, ⟨[], rfl, by simp⟩, fun _ hk => hk⟩

theorem Logs.keeps
    {s t : Session σ τ}
    (hLogs : Logs u s t) :
    s.Keeps t := by
  obtain ⟨h, _, rfl⟩ := hLogs
  exact s.keeps_withHost h

theorem keeps_afterSkipping
    (s : Session σ τ)
    (cs : List Bytes) :
    s.Keeps (s.afterSkipping cs) :=
  ⟨rfl, rfl, ⟨[.skipped cs], rfl, by simp [Moment.accepted?]⟩,
    fun _ hk => hk⟩

theorem keeps_afterAsking
    (s : Session σ τ)
    (cs : List Bytes) :
    s.Keeps (s.afterAsking u cs) :=
  ⟨rfl, rfl, ⟨[.asked cs _], rfl, by simp [Moment.accepted?]⟩,
    fun _ hk => List.mem_cons_of_mem _ hk⟩

theorem keeps_afterForcing
    (s : Session σ τ)
    (cs : List Bytes) :
    s.Keeps (s.afterForcing cs) :=
  ⟨rfl, rfl, ⟨[.forced cs], rfl, by simp [Moment.accepted?]⟩,
    fun _ hk => hk⟩

theorem IsConsistent.keeps_refused
    {s : Session σ τ}
    {w : Workspace}
    (hConsistent : s.IsConsistent u)
    (hRefuses : s.workspace.Refuses u.rules w) :
    s.Keeps { s with workspace := w } :=
  ⟨hRefuses.scratches_eq hConsistent.committed, rfl,
    ⟨[], rfl, by simp⟩, fun _ hk => hk⟩

/- Accepting all files makes a session consistent. -/
theorem isConsistent_of_commits
    {s : Session σ τ}
    {w : Workspace}
    {cs : List Bytes}
    (hApart : s.IsApart u)
    (hCommits : s.workspace.Commits u.rules w)
    (hHolds : s.Holds cs) :
    (s.afterAccepting w cs).IsConsistent u := by
  constructor
  · intro p hp
    apply hApart p
    unfold paths
    rw [← hCommits.paths_eq]
    exact hp
  · intro f hf
    obtain ⟨bs, p, hCommitted, _⟩ := hCommits.isCommitted f hf
    exact ⟨bs, p, hCommitted⟩
  · intro f hf g hg hSame
    obtain ⟨bs, _, hf', hRead⟩ := hCommits.isCommitted f hf
    obtain ⟨bs', _, hg', hRead'⟩ := hCommits.isCommitted g hg
    rw [hf'.snapshot, hg'.snapshot,
      Disk.read_eq_of_resolved hSame hRead hRead']
  · rfl
  · exact hCommits.2.2
  · exact congrArg some
      (Workspace.snapshots_eq (hCommits.snapshot_eq hHolds)).symm

/- Accepting all files replaces what has been accepted. -/
theorem takes_of_commits
    {s t : Session σ τ}
    {w : Workspace}
    {m : Moment}
    {cs : List Bytes}
    (hApart : t.IsApart u)
    (hPaths : t.paths = s.paths)
    (hTrail : t.trail = m :: s.trail)
    (hQuiet : m.accepted? = none)
    (hCommits : t.workspace.Commits u.rules w)
    (hHolds : t.Holds cs) :
    s.Takes u m cs (t.afterAccepting w cs) where
  consistent := isConsistent_of_commits hApart hCommits hHolds
  snapshots :=
    Workspace.snapshots_eq (hCommits.snapshot_eq hHolds)
  paths := hCommits.paths_eq.trans hPaths
  trail := congrArg (List.cons (Moment.accepted cs)) hTrail
  quiet := hQuiet

/- What has been taken stays so while it is kept. -/
theorem Takes.trans_keeps
    {s t v : Session σ τ}
    {m : Moment}
    {cs : List Bytes}
    (hTakes : s.Takes u m cs t)
    (hKeeps : t.Keeps v)
    (hTrail : v.trail = t.trail) :
    s.Takes u m cs v where
  consistent := hKeeps.isConsistent hTakes.consistent
  snapshots := hKeeps.snapshots_eq.trans hTakes.snapshots
  paths := hKeeps.paths_eq.trans hTakes.paths
  trail := hTrail.trans hTakes.trail
  quiet := hTakes.quiet

/- It does not matter what the host was like before. -/
theorem Takes.of_withHost
    {s t : Session σ τ}
    {h : Host}
    {m : Moment}
    {cs : List Bytes}
    (hTakes : (s.withHost h).Takes u m cs t) :
    s.Takes u m cs t :=
  ⟨hTakes.consistent, hTakes.snapshots, hTakes.paths,
    hTakes.trail, hTakes.quiet⟩

end Session

end Whittle

------------------------------------------------------------
-- Trials And Forced Cuts
------------------------------------------------------------

namespace Whittle

namespace Session

variable {σ τ : Type} {u : Setup σ τ}

/-
  A trial keeps what has been accepted, or replaces it by
  contents that were new and that the check has just said yes
  to.
-/
theorem Tries.cases
    {s t : Session σ τ}
    {result : Option Bool}
    (hTries : Tries u s result t)
    (hConsistent : s.IsConsistent u) :
    (s.Keeps t ∧ result ≠ some true) ∨
      ∃ cs, s.IsNew cs ∧ s.Takes u (.asked cs (some true)) cs t ∧
        t.known = Workspace.fingerprint cs :: s.known ∧
        result ≠ some false := by
  have hAsked :
      ∀ {cs v}, Logs u (s.afterAsking u cs) v → s.Keeps v :=
    fun hLogs => trans_of Keeps (s.keeps_afterAsking _) hLogs.keeps
  cases hTries with
  | stop => exact .inl ⟨Std.Refl.refl s, by simp⟩
  | skip cs => exact .inl ⟨s.keeps_afterSkipping cs, by simp⟩
  | fail cs _ hNew hLogs => exact .inl ⟨hAsked hLogs, by simp⟩
  | refuse cs _ hNew hAnswer hLogs =>
      exact .inl ⟨hAsked hLogs, by simp⟩
  | unreadable cs t w _ hNew hAnswer hLogs hHolds hRefuses
      hResult =>
      have hKeeps := hAsked hLogs
      have hRefused :=
        (hKeeps.isConsistent hConsistent).keeps_refused hRefuses
      exact .inl ⟨trans_of Keeps hKeeps hRefused, hResult⟩
  | accept cs t _ w _ hNew hAnswer hLogs hHolds hCommits hLogs'
      hResult =>
      have hKeeps := hAsked hLogs
      have hTakes :
          s.Takes u (.asked cs (some true)) cs
            (t.afterAccepting w cs) :=
        takes_of_commits (hKeeps.isConsistent hConsistent).apart
          hKeeps.paths_eq (hLogs.trail_head hAnswer) rfl hCommits
          hHolds
      obtain ⟨h, _, rfl⟩ := hLogs
      obtain ⟨h', _, rfl⟩ := hLogs'
      exact .inr ⟨cs, hNew,
        hTakes.trans_keeps (keeps_withHost _ _) rfl, rfl, hResult⟩

/- A forced cut keeps what has been accepted, or replaces it. -/
theorem Forces.cases
    {s t : Session σ τ}
    {hasEnded : Bool}
    (hForces : Forces u s hasEnded t)
    (hConsistent : s.IsConsistent u) :
    s.Keeps t ∨
      ∃ cs, s.Holds cs ∧ s.Takes u (.forced cs) cs t := by
  cases hForces with
  | stop => exact .inl (Std.Refl.refl s)
  | refuse cs w _ hHolds hRefuses =>
      have hKeeps := s.keeps_afterForcing cs
      have hRefused :=
        (hKeeps.isConsistent hConsistent).keeps_refused hRefuses
      exact .inl (trans_of Keeps hKeeps hRefused)
  | accept cs w hHolds hCommits =>
      exact .inr ⟨cs, hHolds,
        takes_of_commits (t := s.afterForcing cs)
          hConsistent.apart rfl rfl rfl hCommits hHolds⟩

end Session

end Whittle
