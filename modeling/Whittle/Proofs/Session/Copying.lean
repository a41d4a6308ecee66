import Whittle.Proofs.Session.Soundness
import Whittle.Settings.Reading

/-
  What copying all inputs to their outputs leaves of them.

  Key definitions include:
    * `Disk.Receives`
    * `FilePair.KeepsInputs`
    * `FilePair.AreCompatible`
    * `FilePair.AreCopiedBut`

  Main statements:
    * `FilePair.AreApart.areCompatible`
    * `FilePair.KeepsInputs.areCompatible`
    * `Session.ends_openPairs_copies`
    * `Session.openFiles_keepsInputs_iff`

  Files are copied one after the other, and all that has been
  checked before is that the outputs are written differently.
  An output may still lie where another output lies, or where
  the input of another file lies.  Then one of the two is lost
  without a failure, whatever the order, unless both are to
  hold the same.
-/

------------------------------------------------------------
-- Copying One File
------------------------------------------------------------

namespace Whittle

namespace Disk

/-
  A disk on which the file at a path holds what it is to hold.
  Whatever else can be read is as before, unless it lies at
  the same place and held something else.
-/
structure Receives
    (p : FilePath)
    (bs : Bytes)
    (d d' : Disk) : Prop where
  holds : d'.read p = .ok bs
  others : ∀ q bs', (q.resolved = p.resolved → bs' = bs) →
    d.read q = .ok bs' → d'.read q = .ok bs'
  files : ∀ q, d.IsFile q → d'.IsFile q
  writable : ∀ q, d.CanWrite q → d'.CanWrite q

theorem receives_of_write
    {d d' : Disk}
    {p : FilePath}
    {bs : Bytes}
    (hWrite : d.write p bs = .ok d') :
    d.Receives p bs d' := by
  have hGrows := grows_update hWrite
  have hHolds := read_write_self hWrite
  refine ⟨hHolds, ?_, hGrows.files, fun _ h => h.update hWrite⟩
  intro q bs' hAgree hRead
  by_cases hSame : q.resolved = p.resolved
  · obtain ⟨bs'', hRead'⟩ := hGrows.files q ⟨bs', hRead⟩
    rw [hRead', hAgree hSame,
      read_eq_of_resolved hSame hRead' hHolds]
  · exact read_update_of_ne hWrite hSame hRead

theorem receives_of_read
    {d : Disk}
    {p : FilePath}
    {bs : Bytes}
    (hRead : d.read p = .ok bs) :
    d.Receives p bs d :=
  ⟨hRead, fun _ _ _ h => h, fun _ h => h, fun _ h => h⟩

end Disk

end Whittle

------------------------------------------------------------
-- Inputs And Outputs
------------------------------------------------------------

namespace Whittle

namespace FilePair

/- The path of the input. -/
def source
    (f : FilePair) : FilePath :=
  .ofText f.input

/- The path of the output. -/
def target
    (f : FilePair) : FilePath :=
  .ofText f.output

/-
  Every output holds what its input held, and every input that
  is not its own output holds what it held.
-/
structure KeepsInputs
    (fs : List FilePair)
    (d d' : Disk) : Prop where
  outputs : ∀ f ∈ fs, ∀ bs,
    d.read f.source = .ok bs → d'.read f.target = .ok bs
  inputs : ∀ f ∈ fs, f.input ≠ f.output → ∀ bs,
    d.read f.source = .ok bs → d'.read f.source = .ok bs

/-
  If an output lies where another output or an input lies, the
  two inputs hold the same.
-/
def AreCompatible
    (fs : List FilePair)
    (d : Disk) : Prop :=
  ∀ f ∈ fs, ∀ g ∈ fs, ∀ bs bs',
    d.read f.source = .ok bs → d.read g.source = .ok bs' →
    g.target.resolved = f.target.resolved ∨
      g.source.resolved = f.target.resolved →
    bs' = bs

/- No output lies where anything of another pair lies. -/
def AreApart
    (fs : List FilePair) : Prop :=
  ∀ f ∈ fs, ∀ g ∈ fs, f ≠ g →
    g.target.resolved ≠ f.target.resolved ∧
      g.source.resolved ≠ f.target.resolved

instance
    (fs : List FilePair) :
    Decidable (AreApart fs) :=
  inferInstanceAs
    (Decidable (∀ f ∈ fs, ∀ g ∈ fs, f ≠ g → _ ∧ _))

/- Outputs that lie apart are compatible on every disk. -/
theorem AreApart.areCompatible
    {fs : List FilePair}
    (hApart : AreApart fs)
    (d : Disk) :
    AreCompatible fs d := by
  intro f hf g hg bs bs' hRead hRead' hSame
  by_cases hfg : f = g
  · subst hfg
    rw [hRead] at hRead'
    exact (Except.ok.inj hRead').symm
  · obtain ⟨hTarget, hSource⟩ := hApart f hf g hg hfg
    rcases hSame with hSame | hSame
    · exact absurd hSame hTarget
    · exact absurd hSame hSource

/-
  However the second disk has come about: if it keeps all
  inputs, there was nothing that had to be lost.
-/
theorem KeepsInputs.areCompatible
    {fs : List FilePair}
    {d d' : Disk}
    (hKeeps : KeepsInputs fs d d') :
    AreCompatible fs d := by
  intro f hf g hg bs bs' hRead hRead' hSame
  have hTarget := hKeeps.outputs f hf bs hRead
  rcases hSame with hSame | hSame
  · have hOther := hKeeps.outputs g hg bs' hRead'
    exact Disk.read_eq_of_resolved hSame hOther hTarget
  · have hSource : d'.read g.source = .ok bs' := by
      by_cases hOwn : g.input = g.output
      · have hOther := hKeeps.outputs g hg bs' hRead'
        unfold target at hOther
        rw [← hOwn] at hOther
        exact hOther
      · exact hKeeps.inputs g hg hOwn bs' hRead'
    exact Disk.read_eq_of_resolved hSame hSource hTarget

end FilePair

end Whittle

------------------------------------------------------------
-- Copying File After File
------------------------------------------------------------

namespace Whittle

namespace FilePair

/- All inputs are there, and all outputs can be written. -/
structure CanBeCopied
    (fs : List FilePair)
    (d : Disk) : Prop where
  inputs : ∀ f ∈ fs, d.IsFile f.source
  outputs : ∀ f ∈ fs, d.CanWrite f.target

/- Copying a file gets in the way of no other copy. -/
theorem CanBeCopied.receives
    {fs : List FilePair}
    {d d' : Disk}
    {p : FilePath}
    {bs : Bytes}
    (hCan : CanBeCopied fs d)
    (hReceives : d.Receives p bs d') :
    CanBeCopied fs d' :=
  ⟨fun f hf => hReceives.files _ (hCan.inputs f hf),
    fun f hf => hReceives.writable _ (hCan.outputs f hf)⟩

/-
  How far copying has come: all inputs are as they were, and
  so are the outputs of all pairs but `rest`.
-/
structure AreCopiedBut
    (rest fs : List FilePair)
    (d d' : Disk) : Prop where
  inputs : ∀ f ∈ fs, ∀ bs,
    d.read f.source = .ok bs → d'.read f.source = .ok bs
  outputs : ∀ f ∈ fs, f ∉ rest → ∀ bs,
    d.read f.source = .ok bs → d'.read f.target = .ok bs

theorem areCopiedBut_self
    (fs : List FilePair)
    (d : Disk) :
    AreCopiedBut fs fs d d :=
  ⟨fun _ _ _ h => h, fun _ hf hNot => absurd hf hNot⟩

/- After the last copy all inputs are kept. -/
theorem AreCopiedBut.keepsInputs
    {fs : List FilePair}
    {d d' : Disk}
    (hCopied : AreCopiedBut [] fs d d') :
    KeepsInputs fs d d' :=
  ⟨fun f hf => hCopied.outputs f hf List.not_mem_nil,
    fun f hf _ => hCopied.inputs f hf⟩

/-
  The next copy.  It may lead to a place that is an input, or
  the output of an earlier copy, but only if that place holds
  the same already.
-/
theorem AreCopiedBut.receives
    {f : FilePair}
    {rest fs : List FilePair}
    {d d' d'' : Disk}
    {bs : Bytes}
    (hCompatible : AreCompatible fs d)
    (hf : f ∈ fs)
    (hRead : d.read f.source = .ok bs)
    (hCopied : AreCopiedBut (f :: rest) fs d d')
    (hReceives : d'.Receives f.target bs d'') :
    AreCopiedBut rest fs d d'' := by
  constructor
  · intro g hg bs' hRead'
    refine hReceives.others g.source bs' ?_
      (hCopied.inputs g hg bs' hRead')
    intro hSame
    exact hCompatible f hf g hg bs bs' hRead hRead' (.inr hSame)
  · intro g hg hNot bs' hRead'
    by_cases hgf : g = f
    · subst hgf
      rw [hRead] at hRead'
      cases hRead'
      exact hReceives.holds
    · have hEarlier : g ∉ f :: rest := by
        simp [hgf, hNot]
      refine hReceives.others g.target bs' ?_
        (hCopied.outputs g hg hEarlier bs' hRead')
      intro hSame
      exact hCompatible f hf g hg bs bs' hRead hRead' (.inl hSame)

end FilePair

end Whittle

------------------------------------------------------------
-- Opening Files
------------------------------------------------------------

namespace Whittle

namespace Session

open Work

variable {σ τ : Type}

/- Opening a pair that can be copied copies it. -/
theorem ends_openPair_receives
    {f : FilePair}
    {s : Session σ τ}
    {bs : Bytes}
    (hRead : s.disk.read f.source = .ok bs)
    (hCan : s.disk.CanWrite f.target) :
    Ends (openPair f) s
      (fun _ t => s.disk.Receives f.target bs t.disk)
      (fun _ _ => False) := by
  unfold openPair
  dsimp only
  split
  · obtain ⟨d, hWrite⟩ := (Disk.canWrite_iff bs).mp hCan
    have hCopy : s.disk.copy f.source f.target = .ok d := by
      unfold Disk.copy
      rw [hRead]
      exact hWrite
    apply ends_bind
    apply ends_tryCatch
    apply ends_onFiles
    apply ends_onHost
    refine ends_of_eq_ok (Host.copyFile_eq hCopy) ?_
    apply ends_onFiles
    apply ends_modify
    exact Disk.receives_of_write hWrite
  · rename_i hPlace
    apply ends_onFiles
    apply ends_modify
    exact Disk.receives_of_read
      (hCan.read_of_resolved (not_not.mp hPlace) hRead)

/-
  The pairs that are left are copied as well.  `d` is the disk
  before the first copy.
-/
theorem ends_openRest_copies
    {rest fs : List FilePair}
    {d : Disk}
    {s : Session σ τ}
    (hInputs : ∀ f ∈ fs, d.IsFile f.source)
    (hRest : rest ⊆ fs)
    (hCan : FilePair.CanBeCopied fs s.disk)
    (hCopied : FilePair.AreCompatible fs d →
      FilePair.AreCopiedBut rest fs d s.disk) :
    Ends (rest.forM openPair) s
      (fun _ t => FilePair.AreCompatible fs d →
        FilePair.AreCopiedBut [] fs d t.disk)
      (fun _ _ => False) := by
  induction rest generalizing s with
  | nil => exact ends_pure hCopied
  | cons f rest ih =>
      obtain ⟨hf, hRest⟩ := List.cons_subset.mp hRest
      obtain ⟨bs', hRead'⟩ := hCan.inputs f hf
      apply ends_bind
      refine (ends_openPair_receives hRead'
        (hCan.outputs f hf)).mono ?_ (fun _ _ h => h)
      intro _ t hReceives
      refine ih hRest (hCan.receives hReceives) ?_
      intro hCompatible
      -- The input holds what it held before the first copy.
      obtain ⟨bs, hRead⟩ := hInputs f hf
      have hKept := (hCopied hCompatible).inputs f hf bs hRead
      rw [hRead'] at hKept
      cases hKept
      exact (hCopied hCompatible).receives hCompatible hf hRead
        hReceives

/- Files that can be copied are. -/
theorem ends_openPairs_copies
    {fs : List FilePair}
    {s : Session σ τ}
    (hCan : FilePair.CanBeCopied fs s.disk) :
    Ends (fs.forM openPair) s
      (fun _ t => FilePair.AreCompatible fs s.disk →
        FilePair.AreCopiedBut [] fs s.disk t.disk)
      (fun _ _ => False) :=
  ends_openRest_copies hCan.inputs (List.Subset.refl fs) hCan
    fun _ => FilePair.areCopiedBut_self fs s.disk

/- Once all files have been copied, opening writes no more. -/
theorem ends_openFiles_of_copies
    (u : Setup σ τ)
    {fs : List FilePair}
    {s : Session σ τ}
    {P : Disk → Prop}
    (hCopies :
      Ends (fs.forM openPair) s (fun _ t => P t.disk)
        (fun _ _ => False)) :
    Ends (openFiles u fs) s (fun _ t => P t.disk)
      (fun _ t => P t.disk) := by
  unfold openFiles
  apply ends_bind
  refine hCopies.mono ?_ (fun _ _ h => h.elim)
  intro _ t hP
  have hSame : ∀ {w : Workspace},
      w.host.disk = t.workspace.host.disk → P w.host.disk := by
    intro w hDisk
    rw [hDisk]
    exact hP
  apply ends_bind
  refine (ends_acceptAll t).mono ?_ ?_
  · intro isAccepted v hAccept
    cases isAccepted with
    | false =>
        obtain ⟨w, hRefuses, rfl⟩ := hAccept
        apply ends_bind
        apply ends_modify
        exact ends_throw (hSame hRefuses.1)
    | true =>
        obtain ⟨w, cs, hCommits, _, rfl⟩ := hAccept
        have hKept := hSame hCommits.1
        apply ends_bind
        apply ends_onFiles
        refine (Workspace.ends_contents w).mono ?_ ?_
        · rintro cs' _ ⟨rfl, _⟩
          cases Workspace.key cs' with
          | error e => exact ends_throw hKept
          | ok key => exact ends_modify hKept
        · rintro _ _ rfl
          exact hKept
  · rintro _ _ ⟨w, hRefuses, rfl⟩
    exact hSame hRefuses.1

/-
  Opening files whose inputs are there and whose outputs can
  be written copies them all.  The inputs are kept, and have
  reached their outputs, exactly if they are compatible: that
  the outputs are written differently is not enough.
-/
theorem openFiles_keepsInputs_iff
    (u : Setup σ τ)
    {fs : List FilePair}
    {h : Host}
    (hInputs : ∀ f ∈ fs, h.disk.IsFile f.source)
    (hOutputs : ∀ f ∈ fs, h.disk.CanWrite f.target) :
    (fs.forM openPair (initial u h)).1 = .ok () ∧
      (FilePair.KeepsInputs fs h.disk
          (openFiles u fs (initial u h)).2.disk ↔
        FilePair.AreCompatible fs h.disk) := by
  have hCopies := ends_openPairs_copies (s := initial u h)
    ⟨hInputs, hOutputs⟩
  obtain ⟨⟨⟩, t, hRun⟩ := hCopies.exists_ok
  refine ⟨by rw [hRun], FilePair.KeepsInputs.areCompatible, ?_⟩
  have hOpened := ends_openFiles_of_copies u
    (P := fun d => FilePair.AreCompatible fs h.disk →
      FilePair.AreCopiedBut [] fs h.disk d) hCopies
  exact fun hCompatible =>
    (hOpened.anyway hCompatible).keepsInputs

/- A disk with two files. -/
def twoFiles : Disk :=
  ⟨[(.ofText "a", .file [65]), (.ofText "b", .file [66])]⟩

/- The disk after files have been opened on it. -/
def diskAfterOpening
    (fs : List FilePair) : Disk :=
  (openFiles (smallSetup true .noProgress) fs
    (initial (smallSetup true .noProgress)
      (.ofDisk twoFiles))).2.disk

/-
  Both files reach outputs of their own.  If the output of the
  first is the input of the second, the options are accepted,
  but the second file is lost.
-/
theorem openFiles_keepsInputs_iff_small :
    FilePair.KeepsInputs [⟨"a", "c"⟩, ⟨"b", "d"⟩] twoFiles
        (diskAfterOpening [⟨"a", "c"⟩, ⟨"b", "d"⟩]) ∧
      Settings.validate
        { files := [⟨"a", "b"⟩, ⟨"b", "c"⟩]
          check := { name := .text "dummy" } } = .ok () ∧
      ¬ FilePair.KeepsInputs [⟨"a", "b"⟩, ⟨"b", "c"⟩] twoFiles
        (diskAfterOpening [⟨"a", "b"⟩, ⟨"b", "c"⟩]) := by
  have hCan : ∀ fs : List FilePair,
      (∀ f ∈ fs,
        (twoFiles.read f.source).toOption.isSome ∧
          (twoFiles.write f.target []).toOption.isSome) →
      FilePair.CanBeCopied fs twoFiles := by
    intro fs hAll
    constructor
    · intro f hf
      obtain ⟨bs, hBytes⟩ :=
        Option.isSome_iff_exists.mp (hAll f hf).1
      exact ⟨bs, eq_ok_of_toOption hBytes⟩
    · intro f hf
      obtain ⟨d, hDisk⟩ :=
        Option.isSome_iff_exists.mp (hAll f hf).2
      exact (Disk.canWrite_iff []).mpr
        ⟨d, eq_ok_of_toOption hDisk⟩
  have hApart := hCan [⟨"a", "c"⟩, ⟨"b", "d"⟩] (by decide +kernel)
  have hChain := hCan [⟨"a", "b"⟩, ⟨"b", "c"⟩] (by decide +kernel)
  refine ⟨?_, eq_ok_of_toOption (by decide +kernel), ?_⟩
  · refine (openFiles_keepsInputs_iff
      (h := .ofDisk twoFiles) (smallSetup true .noProgress)
      hApart.inputs hApart.outputs).2.mpr ?_
    exact FilePair.AreApart.areCompatible
      (by decide +kernel) twoFiles
  · intro hKeeps
    have hCompatible := (openFiles_keepsInputs_iff
      (h := .ofDisk twoFiles) (smallSetup true .noProgress)
      hChain.inputs hChain.outputs).2.mp hKeeps
    have hSame : ([66] : Bytes) = [65] :=
      hCompatible ⟨"a", "b"⟩ (by simp) ⟨"b", "c"⟩ (by simp)
        [65] [66] (eq_ok_of_toOption (by decide +kernel))
        (eq_ok_of_toOption (by decide +kernel))
        (.inr (by decide +kernel))
    cases hSame

end Session

end Whittle
