import Whittle.Proofs.Host

/-
  Reading files into trees.

  Key definitions include:
    * `SourceRules.readTree`
    * `SourceRules.readFile`
    * `Scratch.Reads`

  Main statements:
    * `Scratch.load_eq`
    * `Scratch.readFile_eq_ok_iff`
-/

------------------------------------------------------------
-- Trees Of Contents
------------------------------------------------------------

namespace Whittle

namespace SourceRules

/- What some contents of a file are read into. -/
def readTree
    (r : SourceRules)
    (p : FilePath)
    (bs : Bytes) : Except Failure Parsed :=
  match r.charset.decode bs with
  | .error e => .error e
  | .ok t =>
      match r.frontEnd.parse p.text t with
      | some parsed => .ok parsed
      | none => .error .unparsable

/-
  What a file of a disk is read into.  That the charset has a
  name is asked before the file is looked at.
-/
def readFile
    (r : SourceRules)
    (d : Disk)
    (p : FilePath) : Except Failure Parsed :=
  match r.charset with
  | .misnamed => .error .wrongKind
  | _ =>
      match d.read p with
      | .error e => .error (.disk e)
      | .ok bs => r.readTree p bs

/- Some contents of a file can be read into a tree. -/
def IsReadable
    (r : SourceRules)
    (p : FilePath)
    (bs : Bytes) : Prop :=
  ∃ parsed, r.readTree p bs = .ok parsed

instance
    (r : SourceRules)
    (p : FilePath)
    (bs : Bytes) : Decidable (r.IsReadable p bs) :=
  match hTree : r.readTree p bs with
  | .ok parsed => .isTrue ⟨parsed, hTree⟩
  | .error e =>
      .isFalse fun ⟨parsed, hParsed⟩ => by
        rw [hTree] at hParsed
        cases hParsed

end SourceRules

end Whittle

------------------------------------------------------------
-- Reading A File
------------------------------------------------------------

namespace Whittle

namespace Scratch

open Work

variable {r : SourceRules} {s : Scratch}

/- The text of contents that can be had. -/
theorem readTextFrom_of_ok
    {charset : Charset}
    {contents : Work Host Bytes}
    {h : Host}
    {bs : Bytes}
    (hContents : contents h = (.ok bs, h)) :
    Host.readTextFrom charset contents h =
      (charset.decode bs, h) := by
  by_cases hNamed : charset = .misnamed
  · subst hNamed
    rfl
  · rw [Host.readTextFrom_eq hNamed, bind_of_ok hContents]
    cases charset.decode bs with
    | ok t => rfl
    | error e => rfl

/- The text of a file that is there. -/
theorem readText_of_read
    {charset : Charset}
    {p : FilePath}
    {h : Host}
    {bs : Bytes}
    (hRead : h.disk.read p = .ok bs) :
    Host.readText charset p h = (charset.decode bs, h) :=
  readTextFrom_of_ok (Host.readBytes_eq hRead)

/- That the charset has a name is all that is asked before. -/
theorem readFile_of_named
    (hNamed : r.charset ≠ .misnamed)
    (d : Disk)
    (p : FilePath) :
    r.readFile d p =
      match d.read p with
      | .error e => .error (.disk e)
      | .ok bs => r.readTree p bs := by
  unfold SourceRules.readFile
  split
  · rename_i hMisnamed
    exact absurd hMisnamed hNamed
  · rfl

theorem readFile_of_read
    {d : Disk}
    {p : FilePath}
    {bs : Bytes}
    (hRead : d.read p = .ok bs) :
    r.readFile d p = r.readTree p bs := by
  by_cases hNamed : r.charset = .misnamed
  · unfold SourceRules.readFile SourceRules.readTree
    rw [hNamed]
    rfl
  · rw [readFile_of_named hNamed, hRead]

/- Loading a file leaves the host as it is. -/
theorem load_eq
    (r : SourceRules)
    (s : Scratch)
    (h : Host) :
    s.load r h = (r.readFile h.disk s.path, h) := by
  cases hRead : h.disk.read s.path with
  | ok bs =>
      rw [readFile_of_read hRead]
      have hText :
          Host.readText r.charset s.path h =
            (r.charset.decode bs, h) :=
        readText_of_read hRead
      unfold load SourceRules.readTree
      cases hDecode : r.charset.decode bs with
      | error e =>
          rw [hDecode] at hText
          exact bind_of_error hText
      | ok t =>
          rw [hDecode] at hText
          rw [bind_of_ok hText]
          unfold parse
          dsimp only
          cases r.frontEnd.parse s.path.text t with
          | none => rfl
          | some parsed => rfl
  | error e =>
      by_cases hNamed : r.charset = .misnamed
      · unfold load SourceRules.readFile
        rw [hNamed]
        rfl
      · have hBytes :
            Host.readBytes s.path h = (.error (.disk e), h) := by
          have hRun :
              Host.readBytes s.path h =
                (Host.orFail (h.disk.read s.path)) h := rfl
          rw [hRun, hRead]
          rfl
        rw [readFile_of_named hNamed, hRead]
        unfold load Host.readText
        rw [Host.readTextFrom_eq hNamed]
        exact bind_of_error (bind_of_error hBytes)

/- A file of a disk with what it holds and is read into. -/
structure Reads
    (r : SourceRules)
    (d : Disk)
    (s : Scratch)
    (bs : Bytes)
    (p : Parsed) : Prop where
  bytes : d.read s.path = .ok bs
  tree : r.readTree s.path bs = .ok p

/- The files that can be read into trees. -/
theorem readFile_eq_ok_iff
    {d : Disk}
    {p : Parsed} :
    r.readFile d s.path = .ok p ↔ ∃ bs, s.Reads r d bs p := by
  constructor
  · intro hFile
    cases hRead : d.read s.path with
    | ok bs =>
        rw [readFile_of_read hRead] at hFile
        exact ⟨bs, hRead, hFile⟩
    | error e =>
        by_cases hNamed : r.charset = .misnamed
        · unfold SourceRules.readFile at hFile
          rw [hNamed] at hFile
          cases hFile
        · rw [readFile_of_named hNamed, hRead] at hFile
          cases hFile
  · rintro ⟨bs, hReads⟩
    rw [readFile_of_read hReads.bytes]
    exact hReads.tree

end Scratch

end Whittle
