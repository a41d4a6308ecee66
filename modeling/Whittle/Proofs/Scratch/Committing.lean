import Whittle.Proofs.Scratch.Accepting
import Whittle.Proofs.Scratch.Writing

/-
  What files are like after they have been accepted together.

  Key definitions include:
    * `Scratch.IsCommitted`

  Main statements:
    * `Workspace.Commits.isCommitted`
    * `Workspace.commitAll_allOrNone`

  Files that are accepted together hold what they held, and
  what they hold is what has been accepted of them.  If one
  of them cannot be read, no matter which, nothing that has
  been accepted of any of them changes.
-/

------------------------------------------------------------
-- Committed Files
------------------------------------------------------------

namespace Whittle

namespace Scratch

variable {r : SourceRules} {d : Disk} {s s' : Scratch}

/-
  The last accepted contents of a file, the tree that was
  read from them, and the nodes of that tree.  Nothing has
  been read since.
-/
structure IsCommitted
    (r : SourceRules)
    (s : Scratch)
    (bs : Bytes)
    (p : Parsed) : Prop where
  snapshot : s.snapshot = some bs
  root : s.root = some p
  tree : ∃ p' identity, r.readTree s.path bs = .ok p' ∧
    p = p'.withIdentity identity
  prepared : s.prepared = none
  nodes : s.nodes = .ofList p.tree.nodes

/- A file that has been accepted is committed. -/
theorem Accepts.isCommitted
    (hAccepts : Accepts r d s s') :
    ∃ bs p, s'.IsCommitted r bs p ∧ d.read s'.path = .ok bs := by
  obtain ⟨bs, p, identity, hReads, rfl⟩ := hAccepts
  exact ⟨bs, _, ⟨rfl, rfl, ⟨p, identity, hReads.tree, rfl⟩, rfl,
    rfl⟩, hReads.bytes⟩

/- A committed file has nothing to forget. -/
theorem IsCommitted.forget_eq
    {bs : Bytes}
    {p : Parsed}
    (hCommitted : s.IsCommitted r bs p) :
    s.forget = s := by
  unfold forget
  rw [← hCommitted.prepared]

theorem map_root_eq
    {ss : List Scratch}
    (hCommitted : ∀ s ∈ ss, ∃ bs p, s.IsCommitted r bs p) :
    ss.map (·.root) = (ss.filterMap (·.root)).map some ∧
      ss.map (·.nodes) =
        (ss.filterMap (·.root)).map (.ofList ·.tree.nodes) := by
  induction ss with
  | nil => exact ⟨rfl, rfl⟩
  | cons s rest ih =>
      obtain ⟨bs, p, hOne⟩ := hCommitted s (by simp)
      obtain ⟨hRoots, hNodes⟩ :=
        ih fun t ht => hCommitted t (List.mem_cons_of_mem s ht)
      rw [List.filterMap_cons_some hOne.root]
      constructor
      · rw [List.map_cons, List.map_cons, hOne.root, hRoots]
      · rw [List.map_cons, List.map_cons, hOne.nodes, hNodes]

end Scratch

end Whittle

------------------------------------------------------------
-- Files That Are Accepted
------------------------------------------------------------

namespace Whittle

namespace Workspace

variable {r : SourceRules} {w w' : Workspace}

theorem Commits.paths_eq
    (hCommits : w.Commits r w') :
    w'.paths = w.paths := by
  obtain ⟨_, hAll, _⟩ := hCommits
  unfold paths
  generalize w.scratches = ss at hAll ⊢
  generalize w'.scratches = ss' at hAll ⊢
  generalize w.host.disk = d at hAll
  induction hAll with
  | nil => rfl
  | cons hAccepts _ ih =>
      obtain ⟨bs, p, identity, _, rfl⟩ := hAccepts
      rw [List.map_cons, List.map_cons, ih]

theorem Refuses.paths_eq
    (hRefuses : w.Refuses r w') :
    w'.paths = w.paths := by
  obtain ⟨_, hForget, _⟩ := hRefuses
  unfold paths
  rw [hForget, List.map_map]
  rfl

/- Files that are accepted hold something. -/
theorem Commits.holds
    (hCommits : w.Commits r w') :
    ∃ cs, w.host.disk.Holds w.paths cs := by
  obtain ⟨_, hAll, _⟩ := hCommits
  unfold paths
  generalize w.scratches = ss at hAll ⊢
  generalize w'.scratches = ss' at hAll
  generalize w.host.disk = d at hAll ⊢
  induction hAll with
  | nil => exact ⟨[], .nil⟩
  | cons hAccepts _ ih =>
      obtain ⟨bs, p, identity, hReads, _⟩ := hAccepts
      obtain ⟨cs, hRest⟩ := ih
      exact ⟨bs :: cs, .cons hReads.bytes hRest⟩

/- What has been accepted is what the files held. -/
theorem Commits.snapshot_eq
    {cs : List Bytes}
    (hCommits : w.Commits r w')
    (hHolds : w.host.disk.Holds w.paths cs) :
    w'.scratches.map (·.snapshot) = cs.map some := by
  obtain ⟨_, hAll, _⟩ := hCommits
  unfold paths at hHolds
  generalize w.scratches = ss at hAll hHolds
  generalize w'.scratches = ss' at hAll ⊢
  generalize w.host.disk = d at hAll hHolds
  induction hAll generalizing cs with
  | nil =>
      cases hHolds
      rfl
  | cons hAccepts _ ih =>
      obtain ⟨bs, p, identity, hReads, rfl⟩ := hAccepts
      rw [List.map_cons] at hHolds
      cases hHolds with
      | cons hRead hRest =>
          rw [hReads.bytes] at hRead
          cases hRead
          rw [List.map_cons, List.map_cons, ih hRest]

/- The accepted contents of files that all have some. -/
theorem snapshots_eq
    {cs : List Bytes}
    (hSnapshots : w.scratches.map (·.snapshot) = cs.map some) :
    w.snapshots = cs := by
  have hAll :
      w.snapshots =
        (w.scratches.map (·.snapshot)).map (·.getD []) := by
    unfold snapshots
    rw [List.map_map]
    rfl
  rw [hAll, hSnapshots, List.map_map]
  exact List.map_id cs

/- All files that have been accepted are committed. -/
theorem Commits.isCommitted
    (hCommits : w.Commits r w') :
    ∀ s ∈ w'.scratches, ∃ bs p,
      s.IsCommitted r bs p ∧ w.host.disk.read s.path = .ok bs := by
  obtain ⟨_, hAll, _⟩ := hCommits
  generalize w.scratches = ss at hAll
  generalize w'.scratches = ss' at hAll ⊢
  induction hAll with
  | nil => simp
  | cons hAccepts _ ih =>
      intro s hs
      rcases List.mem_cons.mp hs with rfl | hRest
      · exact hAccepts.isCommitted
      · exact ih s hRest

/- Committed files that are refused stay as they are. -/
theorem Refuses.scratches_eq
    (hRefuses : w.Refuses r w')
    (hCommitted :
      ∀ s ∈ w.scratches, ∃ bs p, s.IsCommitted r bs p) :
    w'.scratches = w.scratches := by
  obtain ⟨_, hForget, _⟩ := hRefuses
  rw [hForget]
  refine (List.map_congr_left ?_).trans (List.map_id _)
  intro s hs
  obtain ⟨bs, p, hOne⟩ := hCommitted s hs
  exact hOne.forget_eq

end Workspace

end Whittle

------------------------------------------------------------
-- All Or None
------------------------------------------------------------

namespace Whittle

namespace Workspace

/-
  Accepting all files.  If every file can be read, its
  contents and its tree with its nodes are what is accepted of
  it from now on, and the trees are returned in the order of
  the files.  Otherwise the first file that cannot be read
  says how it fails, and what has been accepted of each file
  stays.  In both cases no file is written, and nothing that
  has been read is left over.
-/
theorem commitAll_allOrNone
    (r : SourceRules)
    (w : Workspace) :
    ∃ w', w'.host.disk = w.host.disk ∧ w'.paths = w.paths ∧
      (∀ s ∈ w'.scratches, s.prepared = none) ∧
      match w.readAll r with
      | .ok ps =>
          ∃ cs roots,
            commitAll r w = (.ok (some roots), w') ∧
            roots = Parsed.numbered w.host.treeCount ps ∧
            w.host.disk.Holds w.paths cs ∧
            w'.scratches.map (·.snapshot) = cs.map some ∧
            w'.scratches.map (·.root) = roots.map some ∧
            w'.scratches.map (·.nodes) =
              roots.map (.ofList ·.tree.nodes)
      | .error e =>
          commitAll r w = (refusal e, w') ∧
            w'.scratches = w.scratches.map Scratch.forget := by
  have hCommit := commitAll_eq r w
  cases hAll : w.readAll r with
  | ok ps =>
      rw [hAll] at hCommit
      obtain ⟨w', hRun, hCommits, hRoots, _⟩ := hCommit
      have hCommitted : ∀ s ∈ w'.scratches,
          ∃ bs p, s.IsCommitted r bs p := by
        intro s hs
        obtain ⟨bs, p, hOne, _⟩ := hCommits.isCommitted s hs
        exact ⟨bs, p, hOne⟩
      obtain ⟨cs, hHolds⟩ := hCommits.holds
      obtain ⟨hTrees, hNodes⟩ := Scratch.map_root_eq hCommitted
      refine ⟨w', hCommits.1, hCommits.paths_eq, ?_, cs, w'.roots,
        hRun, hRoots, hHolds, hCommits.snapshot_eq hHolds, hTrees,
        hNodes⟩
      intro s hs
      obtain ⟨bs, p, hOne⟩ := hCommitted s hs
      exact hOne.prepared
  | error e =>
      rw [hAll] at hCommit
      obtain ⟨w', n, hRun, hHost, hForget⟩ := hCommit
      refine ⟨w', ?_, ?_, ?_, hRun, hForget⟩
      · rw [hHost]
        rfl
      · unfold paths
        rw [hForget, List.map_map]
        rfl
      · rw [hForget]
        intro s hs
        obtain ⟨t, _, rfl⟩ := List.mem_map.mp hs
        rfl

end Workspace

end Whittle
