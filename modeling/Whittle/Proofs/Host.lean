import Whittle.Log
import Whittle.Proofs.Disk.Files
import Whittle.Proofs.Work

/-
  What work on a host does to its disk.

  Key definitions include:
    * `Host.CarriesFiles`
    * `Host.Grows`
    * `RunLog.IsApart`
    * `RunLog.Adds`

  Main statements:
    * `Host.moves_writeText`
    * `RunLog.adds_event`
    * `RunLog.adds_store`

  A host is changed in two ways only: a line is printed, or a
  file is changed.  A relation between hosts that holds along
  these holds along all that is made of them.
-/

------------------------------------------------------------
-- Reading
------------------------------------------------------------

namespace Whittle

namespace Host

open Work

/- Reading a file leaves the host as it is. -/
theorem ends_readBytes
    (p : FilePath)
    (h : Host) :
    Ends (readBytes p) h
      (fun bs h' => h' = h ∧ h.disk.read p = .ok bs)
      (fun _ h' => h' = h ∧ ¬ h.disk.IsFile p) := by
  unfold readBytes
  apply ends_bind
  apply ends_get
  cases hRead : h.disk.read p with
  | ok bs =>
      exact ends_pure ⟨rfl, rfl⟩
  | error e =>
      refine ends_throw ⟨rfl, ?_⟩
      rintro ⟨bs, hBytes⟩
      rw [hRead] at hBytes
      cases hBytes

/- A file that is there is read. -/
theorem readBytes_eq
    {p : FilePath}
    {h : Host}
    {bs : Bytes}
    (hRead : h.disk.read p = .ok bs) :
    readBytes p h = (.ok bs, h) := by
  have hRun :
      readBytes p h = (orFail (h.disk.read p)) h := rfl
  rw [hRun, hRead]
  rfl

/- A file that can be copied is. -/
theorem copyFile_eq
    {p q : FilePath}
    {h : Host}
    {d : Disk}
    (hCopy : h.disk.copy p q = .ok d) :
    copyFile p q h = (.ok (), { h with disk := d }) := by
  have hRun :
      copyFile p q h =
        (orFail (h.disk.copy p q) >>= fun d =>
          set { h with disk := d }) h := rfl
  rw [hRun, hCopy]
  rfl

end Host

end Whittle

------------------------------------------------------------
-- Writing
------------------------------------------------------------

namespace Whittle

namespace Host

open Work

/- A relation that holds whenever lines have been printed. -/
class CarriesLines
    (R : Host → Host → Prop) : Prop extends
    Std.Refl R, IsTrans Host R where
  lines : ∀ (h : Host) (printed warned : List String),
    R h { h with printed := printed, warned := warned }

/- It also holds whenever a file has been changed. -/
class CarriesFiles
    (R : Host → Host → Prop) : Prop extends CarriesLines R where
  update : ∀ {h : Host} {p : FilePath} {f : Bytes → Bytes}
    {d : Disk}, h.disk.update p f = .ok d →
      R h { h with disk := d }

variable {R : Host → Host → Prop}

theorem moves_print
    [CarriesLines R]
    (line : String) :
    Moves R (print line) :=
  fun h => ends_modify (CarriesLines.lines h _ h.warned)

theorem moves_warn
    [CarriesLines R]
    (line : String) :
    Moves R (warn line) :=
  fun h => ends_modify (CarriesLines.lines h h.printed _)

theorem moves_readBytes
    [Std.Refl R]
    (p : FilePath) :
    Moves R (readBytes p) := by
  intro h
  refine (ends_readBytes p h).mono ?_ ?_
  · rintro _ _ ⟨rfl, _⟩
    exact Std.Refl.refl _
  · rintro _ _ ⟨rfl, _⟩
    exact Std.Refl.refl _

theorem moves_update
    [Std.Refl R]
    {p : FilePath}
    {f : Bytes → Bytes}
    (hUpdate : ∀ {h : Host} {d : Disk},
      h.disk.update p f = .ok d → R h { h with disk := d }) :
    Moves R (do
      let h ← get
      let d ← orFail (h.disk.update p f)
      set { h with disk := d }) := by
  intro h
  apply ends_bind
  apply ends_get
  apply ends_bind
  cases hChanged : h.disk.update p f with
  | error e => exact ends_throw (Std.Refl.refl h)
  | ok d =>
      apply ends_pure
      exact ends_set (hUpdate hChanged)

theorem moves_writeBytes
    [CarriesFiles R]
    (p : FilePath)
    (contents : Bytes) :
    Moves R (writeBytes p contents) :=
  moves_update CarriesFiles.update

/- Writing a file gives it its contents. -/
theorem ends_writeBytes
    (p : FilePath)
    (contents : Bytes)
    (h : Host) :
    Ends (writeBytes p contents) h
      (fun _ h' => h.disk.write p contents = .ok h'.disk)
      (fun _ h' => h' = h ∧ ¬ h.disk.IsFile p) := by
  unfold writeBytes
  apply ends_bind
  apply ends_get
  apply ends_bind
  cases hWrite : h.disk.write p contents with
  | ok d =>
      apply ends_pure
      exact ends_set rfl
  | error e =>
      refine ends_throw ⟨rfl, ?_⟩
      intro hFile
      obtain ⟨d, hBytes⟩ := Disk.exists_write hFile contents
      rw [hWrite] at hBytes
      cases hBytes

/- A text is read in a charset with a name, or not at all. -/
theorem readTextFrom_eq
    {charset : Charset}
    (hNamed : charset ≠ .misnamed)
    (contents : Work Host Bytes) :
    readTextFrom charset contents =
      contents >>= fun bs =>
        match charset.decode bs with
        | .ok t => pure t
        | .error e => throw e := by
  cases charset with
  | misnamed => exact absurd rfl hNamed
  | unknown => rfl
  | known codec => rfl

/- A file is emptied before a text is written to it. -/
theorem writeText_eq
    {charset : Charset}
    (hNamed : charset ≠ .misnamed)
    (p : FilePath)
    (t : Text) :
    writeText charset p t =
      writeBytes p [] >>= fun _ =>
        match charset.encode t with
        | .ok bs => writeBytes p bs
        | .error e => throw e := by
  cases charset with
  | misnamed => exact absurd rfl hNamed
  | unknown => rfl
  | known codec => rfl

theorem moves_readTextFrom
    [Std.Refl R]
    [IsTrans Host R]
    {contents : Work Host Bytes}
    (charset : Charset)
    (hContents : Moves R contents) :
    Moves R (readTextFrom charset contents) := by
  by_cases hNamed : charset = .misnamed
  · subst hNamed
    exact moves_throw _
  · rw [readTextFrom_eq hNamed]
    apply moves_bind hContents
    intro bs
    cases charset.decode bs with
    | ok t => exact moves_pure _
    | error e => exact moves_throw _

theorem moves_readText
    [Std.Refl R]
    [IsTrans Host R]
    (charset : Charset)
    (p : FilePath) :
    Moves R (readText charset p) :=
  moves_readTextFrom charset (moves_readBytes p)

theorem moves_writeText
    [CarriesFiles R]
    (charset : Charset)
    (p : FilePath)
    (t : Text) :
    Moves R (writeText charset p t) := by
  by_cases hNamed : charset = .misnamed
  · subst hNamed
    exact moves_throw _
  · rw [writeText_eq hNamed]
    apply moves_bind (moves_writeBytes p [])
    intro _
    cases charset.encode t with
    | ok bs => exact moves_writeBytes p bs
    | error e => exact moves_throw _

/- No file or directory is missing that was there before. -/
def Grows
    (h h' : Host) : Prop :=
  h.disk.Grows h'.disk

instance : CarriesFiles Grows where
  refl h := h.disk.grows_refl
  trans _ _ _ h₁ h₂ := h₁.trans h₂
  lines h _ _ := h.disk.grows_refl
  update hUpdate := Disk.grows_update hUpdate

/- Files can be written wherever they could be before. -/
def LeavesRoom
    (h h' : Host) : Prop :=
  ∀ p, h.disk.CanWrite p → h'.disk.CanWrite p

instance : CarriesFiles LeavesRoom where
  refl _ _ hCan := hCan
  trans _ _ _ h₁ h₂ p hCan := h₂ p (h₁ p hCan)
  lines _ _ _ _ hCan := hCan
  update hUpdate _ hCan := hCan.update hUpdate

/- As many trees have been read as before. -/
def HasSameCount
    (h h' : Host) : Prop :=
  h'.treeCount = h.treeCount

instance : CarriesFiles HasSameCount where
  refl _ := rfl
  trans _ _ _ h₁ h₂ := Eq.trans h₂ h₁
  lines _ _ _ := rfl
  update _ := rfl

end Host

end Whittle

------------------------------------------------------------
-- Logging
------------------------------------------------------------

namespace Whittle

namespace RunLog

open Work

/- The files that a run writes its log to. -/
def files
    (l : RunLog) : List FilePath :=
  (l.directory.map (·.child "events.ndjson")).toList ++
    (l.pathFor "statistics" "json").toList

/- A path leads to another place than the files of a log. -/
def IsApart
    (l : RunLog)
    (p : FilePath) : Prop :=
  ∀ f ∈ l.files, p.resolved ≠ f.resolved

instance
    (l : RunLog)
    (p : FilePath) : Decidable (l.IsApart p) :=
  inferInstanceAs
    (Decidable (∀ f ∈ l.files, p.resolved ≠ f.resolved))

/-
  The host has grown, and files apart from the log still hold
  what they held.
-/
structure Adds
    (l : RunLog)
    (h h' : Host) : Prop where
  grows : h.disk.Grows h'.disk
  keeps : ∀ p bs, l.IsApart p → h.disk.read p = .ok bs →
    h'.disk.read p = .ok bs

variable {l : RunLog}

/- A disk that has not changed still holds what it held. -/
theorem adds_of_disk_eq
    {h h' : Host}
    (hDisk : h'.disk = h.disk) :
    l.Adds h h' := by
  refine ⟨?_, ?_⟩
  · rw [hDisk]
    exact h.disk.grows_refl
  · intro p bs _ hRead
    rw [hDisk]
    exact hRead

instance : Host.CarriesLines l.Adds where
  refl _ := adds_of_disk_eq rfl
  trans _ _ _ h₁ h₂ :=
    ⟨h₁.grows.trans h₂.grows, fun p bs hApart hRead =>
      h₂.keeps p bs hApart (h₁.keeps p bs hApart hRead)⟩
  lines _ _ _ := adds_of_disk_eq rfl

/- Changing a file of the log is adding to the log. -/
theorem adds_of_update
    {h : Host}
    {d : Disk}
    {p : FilePath}
    {f : Bytes → Bytes}
    (hFile : p ∈ l.files)
    (hUpdate : h.disk.update p f = .ok d) :
    l.Adds h { h with disk := d } := by
  refine ⟨Disk.grows_update hUpdate, ?_⟩
  intro q bs hApart hRead
  exact Disk.read_update_of_ne hUpdate (hApart p hFile) hRead

variable {R : Host → Host → Prop}

theorem moves_event_of
    [Host.CarriesLines R]
    (hUpdate : ∀ {h : Host} {p : FilePath} {f : Bytes → Bytes}
      {d : Disk}, p ∈ l.files → h.disk.update p f = .ok d →
        R h { h with disk := d })
    (kind : String)
    (data : Data) :
    Moves R (l.event kind data) := by
  have hStream :
      Moves R
        (if l.streams then
          Host.print (shown l.clock kind data)
        else pure ()) := by
    split
    · exact Host.moves_print _
    · exact moves_pure _
  unfold event
  dsimp only
  cases hDirectory : l.directory with
  | none => exact hStream
  | some directory =>
      have hFile : directory.child "events.ndjson" ∈ l.files := by
        unfold files
        simp [hDirectory]
      have hAppend :
          Moves R (do
            let h ← get
            let d ← Host.orFail
              (h.disk.append (directory.child "events.ndjson")
                (Utf8.encode (line l.clock kind data ++ ['\n'])))
            set { h with disk := d }) :=
        Host.moves_update (hUpdate hFile)
      simpa only [bind_assoc] using
        moves_bind hAppend (fun _ => hStream)

theorem moves_store_of
    [Host.CarriesLines R]
    (hUpdate : ∀ {h : Host} {p : FilePath} {f : Bytes → Bytes}
      {d : Disk}, p ∈ l.files → h.disk.update p f = .ok d →
        R h { h with disk := d })
    (v : Value) :
    Moves R (l.store "statistics" v) := by
  unfold store
  cases hPath : l.pathFor "statistics" "json" with
  | none => exact moves_pure _
  | some path =>
      have hFile : path ∈ l.files := by
        unfold files
        simp [hPath]
      have hWrite : Moves R
          (Host.writeBytes path (Utf8.encode v.jsonSorted)) :=
        Host.moves_update (hUpdate hFile)
      refine moves_bind hWrite (fun _ => ?_)
      exact moves_bind (moves_event_of hUpdate _ _)
        (fun _ => moves_pure _)

theorem moves_event
    [Host.CarriesFiles R]
    (l : RunLog)
    (kind : String)
    (data : Data) :
    Moves R (l.event kind data) :=
  moves_event_of (fun _ => Host.CarriesFiles.update) kind data

theorem moves_store
    [Host.CarriesFiles R]
    (l : RunLog)
    (v : Value) :
    Moves R (l.store "statistics" v) :=
  moves_store_of (fun _ => Host.CarriesFiles.update) v

/- Logging an event adds to the log. -/
theorem adds_event
    (kind : String)
    (data : Data) :
    Moves l.Adds (l.event kind data) :=
  moves_event_of adds_of_update kind data

/- Storing a value in its file adds to the log. -/
theorem adds_store
    (v : Value) :
    Moves l.Adds (l.store "statistics" v) :=
  moves_store_of adds_of_update v

/- The file of the events is there, unless there are no files. -/
def IsStarted
    (l : RunLog)
    (d : Disk) : Prop :=
  ∀ directory, l.directory = some directory →
    d.IsFile (directory.child "events.ndjson")

theorem IsStarted.grows
    {d d' : Disk}
    (hStarted : l.IsStarted d)
    (hGrows : d.Grows d') :
    l.IsStarted d' :=
  fun directory hDirectory =>
    hGrows.files _ (hStarted directory hDirectory)

/- Events can be logged: their file can be written, if any. -/
def CanAdd
    (l : RunLog)
    (d : Disk) : Prop :=
  ∀ directory, l.directory = some directory →
    d.CanWrite (directory.child "events.ndjson")

/- Where the file of the events is there it can be written. -/
theorem IsStarted.canAdd
    {d : Disk}
    (hStarted : l.IsStarted d) :
    l.CanAdd d :=
  fun directory hDirectory =>
    (hStarted directory hDirectory).canWrite

/-
  The first event that is logged makes the file of the events.
  An event fails to be logged only where that file cannot be
  written.
-/
theorem ends_event
    (l : RunLog)
    (kind : String)
    (data : Data)
    (h : Host) :
    Ends (l.event kind data) h
      (fun _ h' => l.IsStarted h'.disk)
      (fun _ h' => h' = h ∧ ¬ l.CanAdd h.disk) := by
  have hStream :
      ∀ h' : Host, l.IsStarted h'.disk →
        Ends
          (if l.streams then
            Host.print (shown l.clock kind data)
          else pure ())
          h' (fun _ h'' => l.IsStarted h''.disk)
          (fun _ h'' => h'' = h ∧ ¬ l.CanAdd h.disk) := by
    intro h' hStarted
    split
    · exact ends_modify hStarted
    · exact ends_pure hStarted
  unfold event
  dsimp only
  cases hDirectory : l.directory with
  | none =>
      refine hStream h fun directory hSome => ?_
      rw [hDirectory] at hSome
      cases hSome
  | some directory =>
      dsimp only
      apply ends_bind
      apply ends_get
      apply ends_bind
      cases hAppend :
          h.disk.append (directory.child "events.ndjson")
            (Utf8.encode (line l.clock kind data ++ ['\n'])) with
      | error e =>
          refine ends_throw ⟨rfl, fun hCan => ?_⟩
          obtain ⟨d, hUpdate⟩ :=
            (hCan directory hDirectory).exists_update
              (· ++ Utf8.encode (line l.clock kind data ++ ['\n']))
          unfold Disk.append at hAppend
          rw [hUpdate] at hAppend
          cases hAppend
      | ok d =>
          apply ends_pure
          apply ends_bind
          apply ends_set
          refine hStream _ fun other hSome => ?_
          rw [hDirectory] at hSome
          cases hSome
          exact Disk.isFile_update hAppend

end RunLog

end Whittle
