import Whittle.Disk.Basic

/-
  What reading a file gives after files have been written.

  Key definitions include:
    * `Disk.IsFile`
    * `Disk.Grows`
    * `Disk.CanWrite`

  Main statements:
    * `Disk.read_write_self`
    * `Disk.read_update_of_ne`
    * `Disk.grows_update`
    * `Disk.canWrite_iff`
    * `Disk.exists_write`
-/

------------------------------------------------------------
-- Following Paths
------------------------------------------------------------

namespace Whittle

namespace Disk

theorem eq_of_follow
    {d : Disk}
    {start q : FilePath}
    {parts : List String}
    (hFollow : d.follow start parts = .ok q) :
    q = parts.foldl FilePath.step start := by
  induction parts generalizing start with
  | nil =>
      simp only [follow, Except.ok.injEq] at hFollow
      exact hFollow.symm
  | cons part rest ih =>
      unfold follow at hFollow
      split at hFollow
      · exact ih hFollow
      · cases hFollow
      · cases hFollow

/- Every directory of the first disk is one of the second. -/
def KeepsDirectories
    (d d' : Disk) : Prop :=
  ∀ q, d.entry? q = some .directory →
    d'.entry? q = some .directory

theorem follow_mono
    {d d' : Disk}
    (hKeeps : d.KeepsDirectories d')
    {start q : FilePath}
    {parts : List String}
    (hFollow : d.follow start parts = .ok q) :
    d'.follow start parts = .ok q := by
  induction parts generalizing start with
  | nil =>
      simpa only [follow] using hFollow
  | cons part rest ih =>
      unfold follow at hFollow ⊢
      split at hFollow
      · rename_i hEntry
        rw [hKeeps start hEntry]
        exact ih hFollow
      · cases hFollow
      · cases hFollow

/- What a path leads to, if its directories are there. -/
theorem find_eq_ok_iff
    {d : Disk}
    {p q : FilePath}
    {e : Option DiskEntry} :
    d.find p = .ok (q, e) ↔
      d.follow ⟨p.isAbsolute, []⟩ p.parts = .ok q ∧
        q = p.resolved ∧ e = d.entry? p.resolved := by
  unfold find
  cases hFollow : d.follow ⟨p.isAbsolute, []⟩ p.parts with
  | error kind => simp
  | ok r =>
      have hr : r = p.resolved := eq_of_follow hFollow
      subst hr
      simp only [Except.ok.injEq, Prod.mk.injEq]
      constructor
      · rintro ⟨rfl, rfl⟩
        exact ⟨rfl, rfl, rfl⟩
      · rintro ⟨_, rfl, rfl⟩
        exact ⟨rfl, rfl⟩

end Disk

end Whittle

------------------------------------------------------------
-- Reading
------------------------------------------------------------

namespace Whittle

namespace Disk

/- A path leads to a file. -/
def IsFile
    (d : Disk)
    (p : FilePath) : Prop :=
  ∃ contents, d.read p = .ok contents

/- The files that can be read from a disk. -/
theorem read_eq_ok_iff
    {d : Disk}
    {p : FilePath}
    {contents : Bytes} :
    d.read p = .ok contents ↔
      d.follow ⟨p.isAbsolute, []⟩ p.parts = .ok p.resolved ∧
        d.entry? p.resolved = some (.file contents) := by
  unfold read
  cases hFind : d.find p with
  | error e =>
      unfold find at hFind
      split at hFind
      · rename_i hFollow
        simp [hFollow]
      · cases hFind
  | ok found =>
      obtain ⟨q, e⟩ := found
      obtain ⟨hFollow, rfl, rfl⟩ := find_eq_ok_iff.mp hFind
      rw [hFollow]
      cases hEntry : d.entry? p.resolved with
      | none => simp
      | some entry => cases entry <;> simp

/- Two paths to one place lead to the same contents. -/
theorem read_eq_of_resolved
    {d : Disk}
    {p q : FilePath}
    {bs bs' : Bytes}
    (hSame : p.resolved = q.resolved)
    (hRead : d.read p = .ok bs)
    (hRead' : d.read q = .ok bs') :
    bs = bs' := by
  obtain ⟨_, hEntry⟩ := read_eq_ok_iff.mp hRead
  obtain ⟨_, hEntry'⟩ := read_eq_ok_iff.mp hRead'
  rw [hSame, hEntry'] at hEntry
  cases hEntry
  rfl

/- The entries of a disk after an entry has been put. -/
theorem entry?_put
    (d : Disk)
    (p q : FilePath)
    (e : DiskEntry) :
    entry? (d.put p e) q =
      if q.parts.all (· = "..") then some .directory
      else if q = p then some e
      else d.entry? q := by
  unfold entry? put
  by_cases hUp : q.parts.all (· = "..")
  · simp [hUp]
  · simp only [hUp, Bool.false_eq_true, if_false]
    rw [lookup_replaced]

/- Only directories have no part that leads forward. -/
theorem entry?_eq_directory
    {d : Disk}
    {p : FilePath}
    (hUp : p.parts.all (· = "..") = true) :
    d.entry? p = some .directory := by
  unfold entry?
  simp [hUp]

end Disk

end Whittle

------------------------------------------------------------
-- Writing
------------------------------------------------------------

namespace Whittle

namespace Disk

/- A disk whose directories and files are all still there. -/
structure Grows
    (d d' : Disk) : Prop where
  directories : d.KeepsDirectories d'
  files : ∀ p, d.IsFile p → d'.IsFile p

theorem grows_refl
    (d : Disk) :
    d.Grows d :=
  ⟨fun _ h => h, fun _ h => h⟩

theorem Grows.trans
    {d₁ d₂ d₃ : Disk}
    (h₁ : d₁.Grows d₂)
    (h₂ : d₂.Grows d₃) :
    d₁.Grows d₃ :=
  ⟨fun q h => h₂.directories q (h₁.directories q h),
    fun p h => h₂.files p (h₁.files p h)⟩

/- What a change of a file does to the entries of a disk. -/
theorem update_eq_ok
    {d d' : Disk}
    {p : FilePath}
    {f : Bytes → Bytes}
    (hUpdate : d.update p f = .ok d') :
    d.follow ⟨p.isAbsolute, []⟩ p.parts = .ok p.resolved ∧
      d.entry? p.resolved ≠ some .directory ∧
      ∃ old, d' = d.put p.resolved (.file (f old)) ∧
        ∀ bs, d.entry? p.resolved = some (.file bs) →
          old = bs := by
  unfold update at hUpdate
  cases hFind : d.find p with
  | error e =>
      rw [hFind] at hUpdate
      cases hUpdate
  | ok found =>
      obtain ⟨q, e⟩ := found
      obtain ⟨hFollow, rfl, rfl⟩ := find_eq_ok_iff.mp hFind
      rw [hFind] at hUpdate
      cases hEntry : d.entry? p.resolved with
      | none =>
          simp only [hEntry] at hUpdate
          split at hUpdate
          · refine ⟨hFollow, by simp, [], ?_, by simp⟩
            exact (Except.ok.inj hUpdate).symm
          · cases hUpdate
      | some entry =>
          cases entry with
          | directory =>
              simp only [hEntry] at hUpdate
              cases hUpdate
          | file old =>
              simp only [hEntry] at hUpdate
              refine ⟨hFollow, by simp, old, ?_, ?_⟩
              · exact (Except.ok.inj hUpdate).symm
              · intro bs hBs
                simpa using hBs

/- Changing a file leaves all directories where they are. -/
theorem keepsDirectories_update
    {d d' : Disk}
    {p : FilePath}
    {f : Bytes → Bytes}
    (hUpdate : d.update p f = .ok d') :
    d.KeepsDirectories d' := by
  obtain ⟨_, hNot, old, rfl, _⟩ := update_eq_ok hUpdate
  intro q hq
  rw [entry?_put]
  by_cases hUp : q.parts.all (· = "..")
  · rw [if_pos hUp]
  · rw [if_neg hUp]
    by_cases hqp : q = p.resolved
    · subst hqp
      exact absurd hq hNot
    · rw [if_neg hqp]
      exact hq

theorem entry?_update_self
    {d d' : Disk}
    {p : FilePath}
    {f : Bytes → Bytes}
    (hUpdate : d.update p f = .ok d') :
    ∃ old, d'.entry? p.resolved = some (.file (f old)) ∧
      ∀ bs, d.entry? p.resolved = some (.file bs) →
        old = bs := by
  obtain ⟨_, hNot, old, rfl, hOld⟩ := update_eq_ok hUpdate
  refine ⟨old, ?_, hOld⟩
  rw [entry?_put]
  have hUp : ¬ (p.resolved.parts.all (· = "..") = true) :=
    fun h => hNot (entry?_eq_directory h)
  rw [if_neg hUp, if_pos rfl]

theorem read_write_self
    {d d' : Disk}
    {p : FilePath}
    {contents : Bytes}
    (hWrite : d.write p contents = .ok d') :
    d'.read p = .ok contents := by
  obtain ⟨hFollow, _⟩ := update_eq_ok hWrite
  obtain ⟨_, hEntry, _⟩ := entry?_update_self hWrite
  exact read_eq_ok_iff.mpr
    ⟨follow_mono (keepsDirectories_update hWrite) hFollow,
      hEntry⟩

theorem entry?_update_of_ne
    {d d' : Disk}
    {p q : FilePath}
    {f : Bytes → Bytes}
    (hUpdate : d.update p f = .ok d')
    (hNe : q ≠ p.resolved) :
    d'.entry? q = d.entry? q := by
  obtain ⟨_, _, old, rfl, _⟩ := update_eq_ok hUpdate
  rw [entry?_put, if_neg hNe]
  split
  · rename_i hUp
    exact (entry?_eq_directory hUp).symm
  · rfl

theorem read_update_of_ne
    {d d' : Disk}
    {p q : FilePath}
    {f : Bytes → Bytes}
    {contents : Bytes}
    (hUpdate : d.update p f = .ok d')
    (hNe : q.resolved ≠ p.resolved)
    (hRead : d.read q = .ok contents) :
    d'.read q = .ok contents := by
  obtain ⟨hFollow, hEntry⟩ := read_eq_ok_iff.mp hRead
  refine read_eq_ok_iff.mpr
    ⟨follow_mono (keepsDirectories_update hUpdate) hFollow, ?_⟩
  rw [entry?_update_of_ne hUpdate hNe]
  exact hEntry

/- Changing a file takes no file or directory away. -/
theorem grows_update
    {d d' : Disk}
    {p : FilePath}
    {f : Bytes → Bytes}
    (hUpdate : d.update p f = .ok d') :
    d.Grows d' := by
  refine ⟨keepsDirectories_update hUpdate, ?_⟩
  rintro q ⟨contents, hRead⟩
  by_cases hNe : q.resolved = p.resolved
  · obtain ⟨hFollow, _⟩ := read_eq_ok_iff.mp hRead
    obtain ⟨old, hEntry, _⟩ := entry?_update_self hUpdate
    refine ⟨f old, read_eq_ok_iff.mpr ⟨?_, ?_⟩⟩
    · exact follow_mono (keepsDirectories_update hUpdate) hFollow
    · rw [hNe]
      exact hEntry
  · exact ⟨contents, read_update_of_ne hUpdate hNe hRead⟩

end Disk

end Whittle

------------------------------------------------------------
-- Where Files Can Be Written
------------------------------------------------------------

namespace Whittle

namespace Disk

/-
  A file can be written at a path: its directories are there,
  and the path does not lead to a directory itself.
-/
structure CanWrite
    (d : Disk)
    (p : FilePath) : Prop where
  follow : d.follow ⟨p.isAbsolute, []⟩ p.parts = .ok p.resolved
  place :
    (∃ bs, d.entry? p.resolved = some (.file bs)) ∨
      d.entry? p.resolved = none ∧
        d.entry? p.resolved.parent = some .directory

/- Files can be changed where they can be written. -/
theorem CanWrite.exists_update
    {d : Disk}
    {p : FilePath}
    (hCan : d.CanWrite p)
    (f : Bytes → Bytes) :
    ∃ d', d.update p f = .ok d' := by
  obtain ⟨hFollow, ⟨bs, hEntry⟩ | ⟨hEntry, hParent⟩⟩ := hCan
  · have hFind := find_eq_ok_iff.mpr ⟨hFollow, rfl, hEntry.symm⟩
    exact ⟨d.put p.resolved (.file (f bs)), by
      unfold update
      rw [hFind]⟩
  · have hFind := find_eq_ok_iff.mpr ⟨hFollow, rfl, hEntry.symm⟩
    exact ⟨d.put p.resolved (.file (f [])), by
      unfold update
      rw [hFind]
      dsimp only
      rw [hParent]⟩

/- Files can be written where they can be written. -/
theorem canWrite_iff
    {d : Disk}
    {p : FilePath}
    (contents : Bytes) :
    d.CanWrite p ↔ ∃ d', d.write p contents = .ok d' := by
  constructor
  · exact fun hCan => hCan.exists_update fun _ => contents
  · rintro ⟨d', hWrite⟩
    obtain ⟨hFollow, hNot, _⟩ := update_eq_ok hWrite
    refine ⟨hFollow, ?_⟩
    cases hEntry : d.entry? p.resolved with
    | some entry =>
        cases entry with
        | file bs => exact .inl ⟨bs, rfl⟩
        | directory => exact absurd hEntry hNot
    | none =>
        refine .inr ⟨rfl, ?_⟩
        have hFind :=
          find_eq_ok_iff.mpr ⟨hFollow, rfl, hEntry.symm⟩
        unfold write update at hWrite
        rw [hFind] at hWrite
        dsimp only at hWrite
        split at hWrite
        · assumption
        · cases hWrite

/- A file can be written anew. -/
theorem IsFile.canWrite
    {d : Disk}
    {p : FilePath}
    (hFile : d.IsFile p) :
    d.CanWrite p := by
  obtain ⟨old, hRead⟩ := hFile
  obtain ⟨hFollow, hEntry⟩ := read_eq_ok_iff.mp hRead
  exact ⟨hFollow, .inl ⟨old, hEntry⟩⟩

/- A file can be given any contents. -/
theorem exists_write
    {d : Disk}
    {p : FilePath}
    (hFile : d.IsFile p)
    (contents : Bytes) :
    ∃ d', d.write p contents = .ok d' :=
  (canWrite_iff contents).mp hFile.canWrite

/- A file that has been changed is there. -/
theorem isFile_update
    {d d' : Disk}
    {p : FilePath}
    {f : Bytes → Bytes}
    (hUpdate : d.update p f = .ok d') :
    d'.IsFile p := by
  obtain ⟨hFollow, _⟩ := update_eq_ok hUpdate
  obtain ⟨old, hEntry, _⟩ := entry?_update_self hUpdate
  exact ⟨f old, read_eq_ok_iff.mpr
    ⟨follow_mono (keepsDirectories_update hUpdate) hFollow, hEntry⟩⟩

/- Changing a file leaves room for all others. -/
theorem CanWrite.update
    {d d' : Disk}
    {p q : FilePath}
    {f : Bytes → Bytes}
    (hCan : d.CanWrite q)
    (hUpdate : d.update p f = .ok d') :
    d'.CanWrite q := by
  have hKeeps := keepsDirectories_update hUpdate
  refine ⟨follow_mono hKeeps hCan.follow, ?_⟩
  by_cases hSame : q.resolved = p.resolved
  · obtain ⟨old, hEntry, _⟩ := entry?_update_self hUpdate
    rw [hSame]
    exact .inl ⟨f old, hEntry⟩
  · rw [entry?_update_of_ne hUpdate hSame]
    exact hCan.place.imp_right fun h => ⟨h.1, hKeeps _ h.2⟩

/- A path to the place of a file leads to the file. -/
theorem CanWrite.read_of_resolved
    {d : Disk}
    {p q : FilePath}
    {bs : Bytes}
    (hCan : d.CanWrite q)
    (hSame : p.resolved = q.resolved)
    (hRead : d.read p = .ok bs) :
    d.read q = .ok bs := by
  obtain ⟨_, hEntry⟩ := read_eq_ok_iff.mp hRead
  rw [hSame] at hEntry
  exact read_eq_ok_iff.mpr ⟨hCan.follow, hEntry⟩

end Disk

end Whittle
