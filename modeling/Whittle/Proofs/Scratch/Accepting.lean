import Mathlib.Data.List.Forall2
import Whittle.Proofs.Scratch.Reading

/-
  Accepting all files at once.

  Key definitions include:
    * `Parsed.numbered`
    * `Scratch.Accepts`
    * `Workspace.readAll`

  Main statements:
    * `Workspace.commitAll_eq`
    * `Workspace.ends_commitAll`

  The files are read first and accepted afterwards.  Reading
  may fail at any file.  Accepting files that have been read
  cannot fail, so either all files are accepted or none is.
-/

------------------------------------------------------------
-- One File
------------------------------------------------------------

namespace Whittle

/- The same host after some more trees have been read. -/
def Host.counting
    (h : Host)
    (n : Nat) : Host :=
  { h with treeCount := h.treeCount + n }

/- Trees that are read later count as well. -/
theorem Host.counting_counting
    (h : Host)
    (m n : Nat) :
    (h.counting m).counting n = h.counting (m + n) := by
  unfold counting
  rw [Nat.add_assoc]

namespace Scratch

open Work

variable {r : SourceRules}

/- A file with a tree that has been read, but not accepted. -/
def withTree
    (s : Scratch)
    (p : Parsed) : Scratch :=
  { s with prepared := some p }

/-
  A file as it is after its contents have been accepted.  Its
  nodes are those of the tree that was read.
-/
def Accepts
    (r : SourceRules)
    (d : Disk)
    (s s' : Scratch) : Prop :=
  ∃ bs p identity, s.Reads r d bs p ∧
    s' =
      { path := s.path
        snapshot := some bs
        root := some (p.withIdentity identity)
        prepared := none
        nodes := .ofList (p.withIdentity identity).tree.nodes }

/- Preparing a file reads it into a tree with the next identity. -/
theorem prepare_eq
    (r : SourceRules)
    (s : Scratch)
    (h : Host) :
    s.prepare r h =
      match r.readFile h.disk s.path with
      | .ok p =>
          (.ok (s.withTree (p.withIdentity h.treeCount)),
            h.counting 1)
      | .error e => (.error e, h) := by
  have hLoad := load_eq r s h
  unfold prepare
  cases hFile : r.readFile h.disk s.path with
  | ok p =>
      rw [hFile] at hLoad
      rw [bind_of_ok hLoad]
      rfl
  | error e =>
      rw [hFile] at hLoad
      exact bind_of_error hLoad

/- A file that is there is accepted with its tree. -/
theorem accept_withTree
    {s : Scratch}
    {h : Host}
    {bs : Bytes}
    (p : Parsed)
    (hRead : h.disk.read s.path = .ok bs) :
    ∃ s', (s.withTree p).accept h = (.ok s', h) ∧
      s'.forget =
        { path := s.path
          snapshot := some bs
          root := some p
          prepared := none
          nodes := .ofList p.tree.nodes } :=
  ⟨_, bind_of_ok (Host.readBytes_eq hRead), rfl⟩

end Scratch

end Whittle

------------------------------------------------------------
-- Numbered Trees
------------------------------------------------------------

namespace Whittle

namespace Parsed

/- Trees with identities that follow each other. -/
def numbered : (start : Nat) → List Parsed → List Parsed
  | _, [] => []
  | start, p :: rest =>
      p.withIdentity start :: numbered (start + 1) rest

/- The identities of numbered trees. -/
theorem identities_numbered
    (start : Nat)
    (ps : List Parsed) :
    (numbered start ps).map (·.tree.identity) =
      List.range' start ps.length := by
  induction ps generalizing start with
  | nil => rfl
  | cons p rest ih =>
      unfold numbered
      rw [List.map_cons, ih, List.length_cons, List.range'_succ]
      rfl

end Parsed

end Whittle

------------------------------------------------------------
-- All Files
------------------------------------------------------------

namespace Whittle

namespace Workspace

open Work Parsed

variable {r : SourceRules}

/- What the files are read into, or why the first one is not. -/
def readAll
    (r : SourceRules)
    (w : Workspace) : Except Failure (List Parsed) :=
  w.scratches.mapM fun s => r.readFile w.host.disk s.path

/-
  Preparing files one after the other.  Where that fails, each
  file is as it was, or is prepared.
-/
theorem changeEach_prepare
    (ss : List Scratch)
    (h : Host) :
    match ss.mapM fun s => r.readFile h.disk s.path with
    | .ok ps =>
        changeEach (Scratch.prepare r) ss h =
          (.ok (),
            ss.zipWith Scratch.withTree (numbered h.treeCount ps),
            h.counting ss.length)
    | .error e =>
        ∃ ss' n,
          changeEach (Scratch.prepare r) ss h =
            (.error e, ss', h.counting n) ∧
          ss'.map Scratch.forget = ss.map Scratch.forget := by
  induction ss generalizing h with
  | nil => rfl
  | cons s rest ih =>
      have hFirst := Scratch.prepare_eq r s h
      have hRest := ih (h.counting 1)
      have hDisk : (h.counting 1).disk = h.disk := rfl
      rw [hDisk] at hRest
      unfold changeEach
      rw [List.mapM_cons]
      cases hFile : r.readFile h.disk s.path with
      | error e =>
          rw [hFile] at hFirst
          rw [hFirst]
          exact ⟨s :: rest, 0, rfl, rfl⟩
      | ok p =>
          rw [hFile] at hFirst
          rw [hFirst]
          dsimp only
          cases hAll : rest.mapM fun s => r.readFile h.disk s.path with
          | error e =>
              rw [hAll] at hRest
              obtain ⟨ss', n, hEach, hForget⟩ := hRest
              rw [hEach]
              refine ⟨s.withTree (p.withIdentity h.treeCount) :: ss',
                1 + n, ?_, ?_⟩
              · rw [Host.counting_counting]
              · rw [List.map_cons, List.map_cons, hForget]
                rfl
          | ok ps =>
              rw [hAll] at hRest
              dsimp only at hRest
              rw [hRest, Host.counting_counting, List.length_cons,
                Nat.add_comm rest.length]
              rfl

/-
  Files that have all been prepared are all accepted, each
  with its tree.
-/
theorem changeEach_accept
    {ss : List Scratch}
    {ps : List Parsed}
    {h : Host}
    (start : Nat)
    (hAll :
      ss.mapM (fun s => r.readFile h.disk s.path) = .ok ps) :
    ∃ ss',
      changeEach Scratch.accept
          (ss.zipWith Scratch.withTree (numbered start ps)) h =
        (.ok (), ss', h) ∧
      List.Forall₂ (Scratch.Accepts r h.disk) ss
        (ss'.map Scratch.forget) ∧
      roots ⟨h, ss'.map Scratch.forget⟩ = numbered start ps := by
  rw [mapM_eq_ok_iff] at hAll
  induction hAll generalizing start with
  | nil => exact ⟨[], rfl, .nil, rfl⟩
  | cons hFile _ ih =>
      rename_i s p rest ps' _
      obtain ⟨ss', hEach, hAccepts, hRoots⟩ := ih (start + 1)
      obtain ⟨bs, hReads⟩ := Scratch.readFile_eq_ok_iff.mp hFile
      obtain ⟨s', hAccept, hForget⟩ :=
        Scratch.accept_withTree (p.withIdentity start) hReads.bytes
      refine ⟨s' :: ss', ?_,
        .cons ⟨bs, p, start, hReads, hForget⟩ hAccepts, ?_⟩
      · unfold numbered
        rw [List.zipWith_cons_cons]
        unfold changeEach
        rw [hAccept]
        dsimp only
        rw [hEach]
      · unfold roots at hRoots ⊢
        unfold numbered
        rw [← hRoots, List.map_cons, hForget]
        rfl

/-
  What accepting all files leads to: every file is accepted,
  and no two trees have the same identity.
-/
def Commits
    (r : SourceRules)
    (w w' : Workspace) : Prop :=
  w'.host.disk = w.host.disk ∧
    List.Forall₂ (Scratch.Accepts r w.host.disk)
      w.scratches w'.scratches ∧
    (w'.roots.map (·.tree.identity)).Nodup

/- The files as they are after accepting them has failed. -/
def Refuses
    (r : SourceRules)
    (w w' : Workspace) : Prop :=
  w'.host.disk = w.host.disk ∧
    w'.scratches = w.scratches.map Scratch.forget ∧
    ∃ s ∈ w.scratches, ¬ ∃ bs p, s.Reads r w.host.disk bs p

/- The result of accepting files that cannot all be read. -/
def refusal : Failure → Except Failure (Option (List Parsed))
  | .unparsable => .ok none
  | e => .error e

/-
  Accepting all files: they are accepted with their trees, or
  they are as they were, but for what had been prepared.
-/
theorem commitAll_eq
    (r : SourceRules)
    (w : Workspace) :
    match w.readAll r with
    | .ok ps =>
        ∃ w', commitAll r w = (.ok (some w'.roots), w') ∧
          w.Commits r w' ∧
          w'.roots = numbered w.host.treeCount ps ∧
          w'.host = w.host.counting w.scratches.length
    | .error e =>
        ∃ w' n, commitAll r w = (refusal e, w') ∧
          w'.host = w.host.counting n ∧
          w'.scratches = w.scratches.map Scratch.forget := by
  have hPrepare := changeEach_prepare (r := r) w.scratches w.host
  unfold readAll commitAll
  cases hAll :
      w.scratches.mapM fun s => r.readFile w.host.disk s.path with
  | error e =>
      rw [hAll] at hPrepare
      obtain ⟨ss', n, hEach, hForget⟩ := hPrepare
      rw [hEach]
      refine ⟨⟨w.host.counting n, ss'.map Scratch.forget⟩, n, ?_,
        rfl, hForget⟩
      cases e <;> rfl
  | ok ps =>
      rw [hAll] at hPrepare
      dsimp only at hPrepare
      rw [hPrepare]
      obtain ⟨ss', hEach, hAccepts, hRoots⟩ :=
        changeEach_accept (h := w.host.counting w.scratches.length)
          w.host.treeCount hAll
      dsimp only
      rw [hEach]
      refine ⟨_, rfl, ⟨rfl, hAccepts, ?_⟩, hRoots, rfl⟩
      rw [hRoots, identities_numbered]
      exact List.nodup_range'

/- Files cannot all be read if one of them cannot. -/
theorem exists_not_reads
    {w : Workspace}
    {e : Failure}
    (hAll : w.readAll r = .error e) :
    ∃ s ∈ w.scratches, ¬ ∃ bs p, s.Reads r w.host.disk bs p := by
  by_contra hNone
  push Not at hNone
  have hEach :
      ∃ ps, List.Forall₂
        (fun s p => r.readFile w.host.disk s.path = .ok p)
        w.scratches ps := by
    generalize w.scratches = ss at hNone
    induction ss with
    | nil => exact ⟨[], .nil⟩
    | cons s rest ih =>
        obtain ⟨bs, p, hReads⟩ := hNone s (by simp)
        obtain ⟨ps, hRest⟩ :=
          ih fun t ht => hNone t (List.mem_cons_of_mem s ht)
        exact ⟨p :: ps, .cons
          (Scratch.readFile_eq_ok_iff.mpr ⟨bs, hReads⟩) hRest⟩
  obtain ⟨ps, hFiles⟩ := hEach
  have hOk := mapM_eq_ok_iff.mpr hFiles
  unfold readAll at hAll
  rw [hAll] at hOk
  cases hOk

/- Either all files are accepted or none is. -/
theorem ends_commitAll
    (w : Workspace) :
    Ends (commitAll r) w
      (fun roots? w' =>
        match roots? with
        | some roots => w.Commits r w' ∧ roots = w'.roots
        | none => w.Refuses r w')
      (fun _ w' => w.Refuses r w') := by
  have hCommit := commitAll_eq r w
  unfold Ends
  cases hAll : w.readAll r with
  | ok ps =>
      rw [hAll] at hCommit
      obtain ⟨w', hRun, hCommits, _⟩ := hCommit
      rw [hRun]
      exact ⟨hCommits, rfl⟩
  | error e =>
      rw [hAll] at hCommit
      obtain ⟨w', n, hRun, hHost, hForget⟩ := hCommit
      have hDisk : w'.host.disk = w.host.disk := by
        rw [hHost]
        rfl
      have hRefuses : w.Refuses r w' :=
        ⟨hDisk, hForget, exists_not_reads hAll⟩
      rw [hRun]
      cases e <;> exact hRefuses

end Workspace

end Whittle
