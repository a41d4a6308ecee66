import Mathlib.Data.List.Forall2
import Whittle.Proofs.Host

/-
  What is in the files of a workspace, and restoring it.

  Key definitions include:
    * `Disk.Holds`
    * `Workspace.paths`

  Main statements:
    * `Scratch.moves_writeTrimmed`
    * `Scratch.moves_writeCleaned`
    * `Scratch.moves_writeWithoutBlankLines`
    * `Workspace.ends_contents`
    * `Workspace.ends_rollBackAll`
-/

------------------------------------------------------------
-- Writing One File
------------------------------------------------------------

namespace Whittle

namespace Scratch

open Host Work

variable {R : Host → Host → Prop} [CarriesFiles R]

omit [CarriesFiles R] in
theorem moves_readSnapshot
    [Std.Refl R]
    (s : Scratch) :
    Moves R s.readSnapshot := by
  unfold readSnapshot
  split
  · exact moves_pure _
  · exact moves_throw _

theorem moves_rollBack
    (s : Scratch) :
    Moves R s.rollBack :=
  moves_bind s.moves_readSnapshot
    (fun _ => moves_writeBytes s.path _)

theorem moves_erase
    (r : SourceRules)
    (s : Scratch)
    (regions : List Region) :
    Moves R (s.erase r regions) := by
  unfold erase
  apply moves_bind (moves_readText r.charset s.path)
  intro t
  split
  · exact moves_throw _
  · exact moves_writeText r.charset s.path _

theorem moves_writeTrimmed
    (r : SourceRules)
    (s : Scratch)
    (nodes : NodeTable) :
    Moves R (s.writeTrimmed r nodes) := by
  unfold writeTrimmed
  apply moves_bind s.moves_rollBack
  intro _
  split
  · exact moves_throw _
  · split
    · exact s.moves_erase r _
    · exact moves_throw _

theorem moves_writeCleaned
    (r : SourceRules)
    (s : Scratch) :
    Moves R (s.writeCleaned r) := by
  unfold writeCleaned
  apply moves_bind s.moves_rollBack
  intro _
  apply moves_bind
    (moves_readTextFrom r.charset s.moves_readSnapshot)
  intro t
  split
  · exact moves_throw _
  · split
    · exact moves_throw _
    · exact s.moves_erase r _

theorem moves_writeWithoutBlankLines
    (r : SourceRules)
    (s : Scratch) :
    Moves R (s.writeWithoutBlankLines r) := by
  unfold writeWithoutBlankLines
  apply moves_bind s.moves_rollBack
  intro _
  apply moves_bind (moves_readText r.charset s.path)
  intro t
  exact moves_writeText r.charset s.path _

end Scratch

end Whittle

------------------------------------------------------------
-- Contents
------------------------------------------------------------

namespace Whittle

namespace Disk

/- The files of a disk at some paths hold some contents. -/
def Holds
    (d : Disk)
    (ps : List FilePath)
    (cs : List Bytes) : Prop :=
  List.Forall₂ (fun p bs => d.read p = .ok bs) ps cs

theorem Holds.unique
    {d : Disk}
    {ps : List FilePath}
    {cs cs' : List Bytes}
    (hHolds : d.Holds ps cs)
    (hHolds' : d.Holds ps cs') :
    cs = cs' := by
  induction hHolds generalizing cs' with
  | nil =>
      cases hHolds'
      rfl
  | cons hRead _ ih =>
      cases hHolds' with
      | cons hRead' hRest =>
          rw [hRead] at hRead'
          cases hRead'
          rw [ih hRest]

theorem Holds.isFile
    {d : Disk}
    {ps : List FilePath}
    {cs : List Bytes}
    (hHolds : d.Holds ps cs) :
    ∀ p ∈ ps, d.IsFile p := by
  induction hHolds with
  | nil => simp
  | cons hRead _ ih =>
      intro p hp
      rcases List.mem_cons.mp hp with rfl | hRest
      · exact ⟨_, hRead⟩
      · exact ih p hRest

theorem Holds.mono
    {d d' : Disk}
    {ps : List FilePath}
    {cs : List Bytes}
    (hHolds : d.Holds ps cs)
    (hKeeps : ∀ p ∈ ps, ∀ bs, d.read p = .ok bs →
      d'.read p = .ok bs) :
    d'.Holds ps cs := by
  induction hHolds with
  | nil => exact .nil
  | cons hRead _ ih =>
      refine .cons (hKeeps _ (by simp) _ hRead) (ih ?_)
      intro p hp
      exact hKeeps p (List.mem_cons_of_mem _ hp)

end Disk

namespace Workspace

open Work

/- The paths of the files, in order. -/
def paths
    (w : Workspace) : List FilePath :=
  w.scratches.map (·.path)

/- Looking at the contents of all files leaves them alone. -/
theorem ends_contents
    (w : Workspace) :
    Ends contents w
      (fun cs w' => w' = w ∧ w.host.disk.Holds w.paths cs)
      (fun _ w' => w' = w) := by
  have hAll :
      ∀ ss : List Scratch,
        Ends (ss.mapM fun s => Host.readBytes s.path) w.host
          (fun cs h => h = w.host ∧
            h.disk.Holds (ss.map (·.path)) cs)
          (fun _ h => h = w.host) := by
    intro ss
    induction ss with
    | nil => exact ends_pure ⟨rfl, .nil⟩
    | cons s rest ih =>
        rw [List.mapM_cons]
        apply ends_bind
        refine (Host.ends_readBytes s.path w.host).mono ?_ ?_
        · rintro bs _ ⟨rfl, hRead⟩
          apply ends_bind
          refine ih.mono ?_ (fun _ _ hHost => hHost)
          rintro cs _ ⟨rfl, hHolds⟩
          exact ends_pure ⟨rfl, .cons hRead hHolds⟩
        · rintro _ _ ⟨rfl, _⟩
          rfl
  unfold contents
  apply ends_bind
  apply ends_get
  apply ends_onHost
  refine (hAll w.scratches).mono ?_ ?_
  · rintro cs _ ⟨rfl, hHolds⟩
    exact ⟨rfl, hHolds⟩
  · rintro _ _ rfl
    rfl

/- The contents of files that are there can be looked at. -/
theorem contents_eq
    {w : Workspace}
    {cs : List Bytes}
    (hHolds : w.host.disk.Holds w.paths cs) :
    contents w = (.ok cs, w) := by
  have hAll :
      ∀ (ss : List Scratch) (cs : List Bytes),
        w.host.disk.Holds (ss.map (·.path)) cs →
          (ss.mapM fun s => Host.readBytes s.path) w.host =
            (.ok cs, w.host) := by
    intro ss cs hEach
    induction ss generalizing cs with
    | nil =>
        cases hEach
        rfl
    | cons s rest ih =>
        rw [List.map_cons] at hEach
        cases hEach with
        | cons hRead hRest =>
            rw [List.mapM_cons, bind_of_ok (Host.readBytes_eq hRead),
              bind_of_ok (ih _ hRest)]
            rfl
  have hRun :
      contents w =
        Workspace.onHost
          (w.scratches.mapM fun s => Host.readBytes s.path) w := rfl
  rw [hRun]
  unfold Workspace.onHost
  rw [hAll w.scratches cs hHolds]

/- If contents cannot be looked at the files hold none. -/
theorem ends_contents_missing
    (w : Workspace) :
    Ends contents w
      (fun _ _ => True)
      (fun _ _ => ∀ cs, ¬ w.host.disk.Holds w.paths cs) := by
  unfold Ends
  split
  · trivial
  · rename_i e w' hRun
    intro cs hHolds
    rw [contents_eq hHolds] at hRun
    cases hRun

theorem size_eq
    {w : Workspace}
    {cs : List Bytes}
    (hHolds : w.host.disk.Holds w.paths cs) :
    size w = (.ok (total (cs.map List.length)), w) := by
  unfold size
  rw [bind_of_ok (contents_eq hHolds)]
  rfl

/- Adding up the bytes of all files leaves them alone. -/
theorem ends_size
    (w : Workspace) :
    Ends size w (fun _ w' => w' = w) (fun _ w' => w' = w) := by
  unfold size
  apply ends_bind
  refine (ends_contents w).mono ?_ (fun _ _ h => h)
  rintro cs w' ⟨rfl, _⟩
  exact ends_pure rfl

end Workspace

end Whittle

------------------------------------------------------------
-- Restoring All Files
------------------------------------------------------------

namespace Whittle

namespace Scratch

open Work

/- Restoring a file that is there writes what was accepted. -/
theorem ends_rollBack
    {s : Scratch}
    {h : Host}
    {bs : Bytes}
    (hSnapshot : s.snapshot = some bs)
    (hFile : h.disk.IsFile s.path) :
    Ends s.rollBack h
      (fun _ h' => h.disk.write s.path bs = .ok h'.disk)
      (fun _ _ => False) := by
  unfold rollBack readSnapshot
  rw [hSnapshot]
  refine (Host.ends_writeBytes s.path bs h).mono ?_ ?_
  · exact fun _ _ hWrite => hWrite
  · exact fun _ _ hMissing => hMissing.2 hFile

end Scratch

namespace FilePath

/- No two of the paths lead to the same place. -/
def AreDistinct
    (ps : List FilePath) : Prop :=
  (ps.map resolved).Nodup

instance
    (ps : List FilePath) : Decidable (AreDistinct ps) :=
  inferInstanceAs (Decidable (ps.map resolved).Nodup)

end FilePath

namespace Workspace

open Work

/- Doing work for each file changes the host only. -/
theorem ends_forEach_of_moves
    {R : Host → Host → Prop}
    [Host.CarriesFiles R]
    {work : Scratch → Work Host Unit}
    (hWork : ∀ s, Moves R (work s))
    (w : Workspace) :
    Ends (forEach work) w
      (fun _ w' => ∃ h, R w.host h ∧ w' = { w with host := h })
      (fun _ w' => ∃ h, R w.host h ∧ w' = { w with host := h }) := by
  unfold forEach
  apply ends_bind
  apply ends_get
  apply ends_onHost
  refine (moves_forM hWork w.scratches w.host).mono ?_ ?_
  · exact fun _ h hMoves => ⟨h, hMoves, rfl⟩
  · exact fun _ h hMoves => ⟨h, hMoves, rfl⟩

/-
  Restoring files one after the other.  As no two of them are
  the same, a file that has been restored stays so.
-/
theorem ends_forM_rollBack
    {ss : List Scratch}
    {cs : List Bytes}
    {h : Host}
    (hSnapshots : ss.map (·.snapshot) = cs.map some)
    (hFiles : ∀ s ∈ ss, h.disk.IsFile s.path)
    (hDistinct : FilePath.AreDistinct (ss.map (·.path))) :
    Ends (ss.forM Scratch.rollBack) h
      (fun _ h' =>
        h'.disk.Holds (ss.map (·.path)) cs ∧ h.Grows h' ∧
          ∀ q bs, q.resolved ∉ ss.map (·.path.resolved) →
            h.disk.read q = .ok bs → h'.disk.read q = .ok bs)
      (fun _ _ => False) := by
  induction ss generalizing cs h with
  | nil =>
      cases cs with
      | nil =>
          exact ends_pure
            ⟨.nil, Std.Refl.refl h, fun _ _ _ hRead => hRead⟩
      | cons bs rest => cases hSnapshots
  | cons s rest ih =>
      cases cs with
      | nil => cases hSnapshots
      | cons bs cs =>
          simp only [List.map_cons, List.cons.injEq] at hSnapshots
          obtain ⟨hFirst, hRest⟩ := hSnapshots
          unfold FilePath.AreDistinct at hDistinct
          simp only [List.map_cons, List.nodup_cons,
            List.map_map] at hDistinct
          obtain ⟨hApart, hDistinct⟩ := hDistinct
          apply ends_bind
          refine (Scratch.ends_rollBack hFirst
            (hFiles s (by simp))).mono ?_ (fun _ _ h => h)
          intro _ h' hWrite
          have hGrows := Disk.grows_update hWrite
          have hRestored :
              h'.disk.read s.path = .ok bs :=
            Disk.read_write_self hWrite
          refine (ih hRest ?_ ?_).mono ?_ (fun _ _ h => h)
          · intro t ht
            exact hGrows.files t.path
              (hFiles t (List.mem_cons_of_mem s ht))
          · unfold FilePath.AreDistinct
            rw [List.map_map]
            exact hDistinct
          · rintro _ h'' ⟨hHolds, hGrows', hKeeps⟩
            refine ⟨.cons ?_ hHolds, hGrows.trans hGrows', ?_⟩
            · exact hKeeps s.path bs hApart hRestored
            · intro q bs' hq hRead
              simp only [List.map_cons, List.mem_cons,
                not_or] at hq
              exact hKeeps q bs' hq.2
                (Disk.read_update_of_ne hWrite hq.1 hRead)

/-
  Restoring all files cannot fail while they are there and
  have accepted contents, and it leaves these in the files.
-/
theorem ends_rollBackAll
    {w : Workspace}
    {cs : List Bytes}
    (hSnapshots : w.scratches.map (·.snapshot) = cs.map some)
    (hFiles : ∀ p ∈ w.paths, w.host.disk.IsFile p)
    (hDistinct : FilePath.AreDistinct w.paths) :
    Ends rollBackAll w
      (fun _ w' => ∃ h,
        w.host.Grows h ∧ w' = { w with host := h } ∧
          h.disk.Holds w.paths cs)
      (fun _ _ => False) := by
  unfold rollBackAll forEach
  apply ends_bind
  apply ends_get
  apply ends_onHost
  have hThere : ∀ s ∈ w.scratches, w.host.disk.IsFile s.path :=
    fun s hs => hFiles s.path (List.mem_map_of_mem hs)
  refine (ends_forM_rollBack hSnapshots hThere hDistinct).mono
    ?_ (fun _ _ h => h)
  rintro _ h ⟨hHolds, hGrows, _⟩
  exact ⟨h, hGrows, rfl, hHolds⟩

end Workspace

end Whittle
