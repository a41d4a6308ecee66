import Whittle.Proofs.Session.Commit

/-
  How a run starts.

  Key definitions include:
    * `Session.targets`
    * `Session.Starts`

  Main statements:
    * `Session.starts_of_openFiles`

  Opening files accepts what they hold, and remembers it as
  known.  Nothing else has happened by then.
-/

------------------------------------------------------------
-- Opening
------------------------------------------------------------

namespace Whittle

namespace Session

open Work

variable {σ τ : Type} {u : Setup σ τ}

/- The paths of the outputs of some pairs of files. -/
def targets
    (fs : List FilePair) : List FilePath :=
  fs.map fun f => .ofText f.output

/- A session in which nothing but files has been added. -/
def AddsPaths
    (ps : List FilePath)
    (s t : Session σ τ) : Prop :=
  t.trail = s.trail ∧ t.known = s.known ∧
    t.paths = s.paths ++ ps

/- Work on the host changes nothing else. -/
theorem ends_onHost_only
    {α : Type}
    (work : Work Host α)
    (s : Session σ τ) :
    Ends (onHost work) s
      (fun _ t => ∃ h, t = s.withHost h)
      (fun _ t => ∃ h, t = s.withHost h) := by
  apply ends_onFiles
  apply ends_onHost
  unfold Ends
  split
  · exact ⟨_, rfl⟩
  · exact ⟨_, rfl⟩

/- Opening a pair of files adds the output. -/
theorem ends_openPair
    (f : FilePair)
    (s : Session σ τ) :
    Ends (openPair f) s
      (fun _ t => s.AddsPaths [.ofText f.output] t)
      (fun _ _ => True) := by
  have hAdd :
      ∀ t : Session σ τ, t.trail = s.trail →
        t.known = s.known → t.paths = s.paths →
        Ends
          (onFiles
            (modify fun w =>
              { w with
                scratches :=
                  w.scratches ++ [.create (.ofText f.output)] }))
          t
          (fun _ v => s.AddsPaths [.ofText f.output] v)
          (fun _ _ => True) := by
    intro t hTrail hKnown hPaths
    apply ends_onFiles
    apply ends_modify
    refine ⟨hTrail, hKnown, ?_⟩
    rw [← hPaths]
    exact List.map_append
  unfold openPair
  dsimp only
  split
  · apply ends_bind
    apply ends_tryCatch
    refine (ends_onHost_only _ s).mono ?_ ?_
    · rintro _ _ ⟨h, rfl⟩
      exact hAdd _ rfl rfl rfl
    · intro e t _
      split
      · apply ends_bind
        apply ends_modify
        exact ends_throw trivial
      · exact ends_throw trivial
  · exact hAdd s rfl rfl rfl

/- Opening pairs of files adds their outputs. -/
theorem ends_openPairs
    (fs : List FilePair)
    (s : Session σ τ) :
    Ends (fs.forM openPair) s
      (fun _ t => s.AddsPaths (targets fs) t)
      (fun _ _ => True) := by
  induction fs generalizing s with
  | nil => exact ends_pure ⟨rfl, rfl, (List.append_nil _).symm⟩
  | cons f rest ih =>
      apply ends_bind
      refine (ends_openPair f s).mono ?_ (fun _ _ h => h)
      rintro _ t ⟨hTrail, hKnown, hPaths⟩
      refine (ih t).mono ?_ (fun _ _ h => h)
      rintro _ v ⟨hTrail', hKnown', hPaths'⟩
      refine ⟨hTrail'.trans hTrail, hKnown'.trans hKnown, ?_⟩
      rw [hPaths', hPaths, List.append_assoc]
      rfl

/- The session after files that were opened are known. -/
def afterOpening
    (s : Session σ τ)
    (w : Workspace)
    (cs : List Bytes) : Session σ τ :=
  { s.afterAccepting w cs with
    known := Workspace.fingerprint cs :: s.known }

/-
  What is there when files that are to be opened are accepted
  with what they hold.
-/
structure Starts
    (u : Setup σ τ)
    (fs : List FilePair)
    (s : Session σ τ)
    (w : Workspace)
    (cs : List Bytes) : Prop where
  trail : s.trail = []
  known : s.known = []
  paths : s.paths = targets fs
  commits : s.workspace.Commits u.rules w
  holds : s.Holds cs
  short : Workspace.AreShort cs

/- What has been opened has been accepted. -/
theorem Starts.snapshots_eq
    {fs : List FilePair}
    {s : Session σ τ}
    {w : Workspace}
    {cs : List Bytes}
    (hStarts : Starts u fs s w cs) :
    (s.afterOpening w cs).workspace.snapshots = cs :=
  Workspace.snapshots_eq
    (hStarts.commits.snapshot_eq hStarts.holds)

/- Files that could be opened have been accepted and are known. -/
theorem starts_of_openFiles
    {fs : List FilePair}
    {h : Host}
    {s : Session σ τ}
    (hOpen : openFiles u fs (initial u h) = (.ok (), s)) :
    ∃ t w cs, Starts u fs t w cs ∧ s = t.afterOpening w cs := by
  have hEnds :
      Ends (openFiles u fs) (initial u h)
        (fun _ v =>
          ∃ t w cs, Starts u fs t w cs ∧ v = t.afterOpening w cs)
        (fun _ _ => True) := by
    unfold openFiles
    apply ends_bind
    refine (ends_openPairs fs (initial u h)).mono ?_
      (fun _ _ h => h)
    rintro _ t ⟨hTrail, hKnown, hPaths⟩
    apply ends_bind
    refine (ends_acceptAll t).mono ?_ (fun _ _ _ => trivial)
    intro isAccepted v hAccept
    cases isAccepted with
    | false =>
        apply ends_bind
        apply ends_modify
        exact ends_throw trivial
    | true =>
        obtain ⟨w, cs, hCommits, hHolds, rfl⟩ := hAccept
        apply ends_bind
        apply ends_onFiles
        refine (Workspace.ends_contents w).mono ?_
          (fun _ _ _ => trivial)
        rintro cs' _ ⟨rfl, hHolds'⟩
        rw [hCommits.paths_eq, hCommits.1] at hHolds'
        obtain rfl : cs = cs' := Disk.Holds.unique hHolds hHolds'
        cases hKey : Workspace.key cs with
        | error e => exact ends_throw trivial
        | ok key =>
            obtain ⟨hShort, rfl⟩ :=
              Workspace.key_eq_ok_iff.mp hKey
            apply ends_modify
            exact ⟨t, _, cs, ⟨hTrail, hKnown, hPaths, hCommits,
              hHolds, hShort⟩, rfl⟩
  exact hEnds.of_ok hOpen

end Session

end Whittle
