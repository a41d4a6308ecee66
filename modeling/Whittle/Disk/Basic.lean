import Whittle.Disk.FilePath
import Whittle.Text.Charset
import Whittle.Text.Quoted

/-
  The files that a run reads and writes.

  Key definitions include:
    * `DiskError`
    * `Disk`
    * `Disk.read`
    * `Disk.write`
    * `Disk.copy`
    * `Disk.makeDirectory`
    * `Disk.files`
-/

------------------------------------------------------------
-- Errors
------------------------------------------------------------

namespace Whittle

/- Why a path cannot be used. -/
inductive DiskErrorKind where
| missing
| alreadyExists
| notDirectory
| isDirectory
deriving DecidableEq, Repr, Inhabited

namespace DiskErrorKind

/- The number of an error. -/
def code : DiskErrorKind → Nat
  | missing => 2
  | alreadyExists => 17
  | notDirectory => 20
  | isDirectory => 21

/- The wording of an error. -/
def text : DiskErrorKind → String
  | missing => "No such file or directory"
  | alreadyExists => "File exists"
  | notDirectory => "Not a directory"
  | isDirectory => "Is a directory"

end DiskErrorKind

/- An error with the path that it is about. -/
structure DiskError where
  kind : DiskErrorKind
  path : String
deriving DecidableEq, Repr, Inhabited

namespace DiskError

/- The wording of an error. -/
def message
    (e : DiskError) : String :=
  "[Errno " ++ toString e.kind.code ++ "] " ++
    e.kind.text ++ ": " ++ quote e.path

end DiskError

end Whittle

------------------------------------------------------------
-- Files And Directories
------------------------------------------------------------

namespace Whittle

/- What a path may lead to. -/
inductive DiskEntry where
| file (contents : Bytes)
| directory
deriving DecidableEq, Repr, Inhabited

/- The entries of a disk, by their resolved paths. -/
structure Disk where
  entries : List (FilePath × DiskEntry)
deriving Repr, Inhabited

namespace Disk

/- A disk without files. -/
def empty : Disk :=
  ⟨[]⟩

/-
  What a resolved path leads to.  The directory that a run
  works in, and those that it lies in, are always there.
-/
def entry?
    (d : Disk)
    (p : FilePath) : Option DiskEntry :=
  if p.parts.all (· = "..") then
    some .directory
  else
    d.entries.lookup p

/- Put an entry in the place of an older one, or add it. -/
def replaced
    (p : FilePath)
    (e : DiskEntry) :
    List (FilePath × DiskEntry) → List (FilePath × DiskEntry)
  | [] => [(p, e)]
  | (q, old) :: rest =>
      if q = p then
        (p, e) :: rest
      else
        (q, old) :: replaced p e rest

/- Let a resolved path lead to an entry. -/
def put
    (d : Disk)
    (p : FilePath)
    (e : DiskEntry) : Disk :=
  ⟨replaced p e d.entries⟩

theorem lookup_replaced
    (p q : FilePath)
    (e : DiskEntry)
    (entries : List (FilePath × DiskEntry)) :
    (replaced p e entries).lookup q =
      if q = p then some e else entries.lookup q := by
  induction entries with
  | nil =>
      by_cases hq : q = p
      · simp [replaced, hq]
      · have hNe : (q == p) = false := by simp [hq]
        simp [replaced, List.lookup_cons, hq, hNe]
  | cons head rest ih =>
      obtain ⟨r, old⟩ := head
      by_cases hr : r = p
      · subst hr
        by_cases hq : q = r
        · simp [replaced, hq]
        · have hNe : (q == r) = false := by simp [hq]
          simp [replaced, List.lookup_cons, hq, hNe]
      · by_cases hq : q = r
        · subst hq
          simp [replaced, hr]
        · have hNe : (q == r) = false := by simp [hq]
          simp [replaced, hr, List.lookup_cons, hNe, ih]

/-
  Follow parts from a directory on.  Whatever has more parts
  after it has to be a directory.
-/
def follow
    (d : Disk)
    (start : FilePath) :
    List String → Except DiskErrorKind FilePath
  | [] => .ok start
  | part :: rest =>
      match d.entry? start with
      | some .directory => follow d (start.step part) rest
      | some (.file _) => .error .notDirectory
      | none => .error .missing

/- The resolved path of a path, and what it leads to. -/
def find
    (d : Disk)
    (p : FilePath) :
    Except DiskError (FilePath × Option DiskEntry) :=
  match d.follow ⟨p.isAbsolute, []⟩ p.parts with
  | .error kind => .error ⟨kind, p.text⟩
  | .ok q => .ok (q, d.entry? q)

/- A path leads to something. -/
def contains
    (d : Disk)
    (p : FilePath) : Bool :=
  match d.find p with
  | .ok (_, some _) => true
  | _ => false

end Disk

end Whittle

------------------------------------------------------------
-- Reading And Writing
------------------------------------------------------------

namespace Whittle

namespace Disk

/- The contents of a file. -/
def read
    (d : Disk)
    (p : FilePath) : Except DiskError Bytes :=
  match d.find p with
  | .error e => .error e
  | .ok (_, some (.file contents)) => .ok contents
  | .ok (_, some .directory) => .error ⟨.isDirectory, p.text⟩
  | .ok (_, none) => .error ⟨.missing, p.text⟩

/- Change the contents of a file, or make a new one. -/
def update
    (d : Disk)
    (p : FilePath)
    (f : Bytes → Bytes) : Except DiskError Disk :=
  match d.find p with
  | .error e => .error e
  | .ok (_, some .directory) => .error ⟨.isDirectory, p.text⟩
  | .ok (q, some (.file old)) => .ok (d.put q (.file (f old)))
  | .ok (q, none) =>
      match d.entry? q.parent with
      | some .directory => .ok (d.put q (.file (f [])))
      | _ => .error ⟨.missing, p.text⟩

/- Give a file new contents. -/
def write
    (d : Disk)
    (p : FilePath)
    (contents : Bytes) : Except DiskError Disk :=
  d.update p fun _ => contents

/- Add to the contents of a file. -/
def append
    (d : Disk)
    (p : FilePath)
    (contents : Bytes) : Except DiskError Disk :=
  d.update p (· ++ contents)

/- Copy the contents of a file. -/
def copy
    (d : Disk)
    (source target : FilePath) : Except DiskError Disk :=
  match d.read source with
  | .error e => .error e
  | .ok contents => d.write target contents

/- Make one directory in a directory that is there. -/
def makeOne
    (d : Disk)
    (p : FilePath) : Except DiskError Disk :=
  match d.find p with
  | .error e => .error e
  | .ok (_, some .directory) => .ok d
  | .ok (_, some (.file _)) => .error ⟨.alreadyExists, p.text⟩
  | .ok (q, none) =>
      match d.entry? q.parent with
      | some .directory => .ok (d.put q .directory)
      | _ => .error ⟨.missing, p.text⟩

/-
  Make a directory, and first those that it lies in.  `done`
  are the parts that have been made.
-/
def makeFrom
    (p : FilePath) :
    Disk → (done rest : List String) → Except DiskError Disk
  | d, _, [] => .ok d
  | d, done, part :: rest =>
      let q : FilePath := { p with parts := done ++ [part] }
      match d.makeOne q with
      | .error e =>
          match e.kind with
          | .alreadyExists =>
              .error
                (if rest.isEmpty then e else ⟨.notDirectory, p.text⟩)
          | _ => .error e
      | .ok d => makeFrom p d (done ++ [part]) rest

/- Make a directory that may be there already. -/
def makeDirectory
    (d : Disk)
    (p : FilePath) : Except DiskError Disk :=
  makeFrom p d [] p.parts

/- The order of the files in a listing. -/
def nameAtMost
    (e f : String × Bytes) : Bool :=
  Text.isAtMost e.1.toList f.1.toList

/- The files of a disk, sorted by name. -/
def files
    (d : Disk) : List (String × Bytes) :=
  (d.entries.filterMap fun (p, e) =>
    match e with
    | .file contents => some (p.text, contents)
    | .directory => none).mergeSort nameAtMost

/-
  A disk that holds the given files, with the directories
  that they lie in.  Files that cannot be put are left out.
-/
def ofFiles
    (fs : List (String × Bytes)) : Disk :=
  fs.foldl
    (fun d (name, contents) =>
      let p := FilePath.ofText name
      let made := (d.makeDirectory p.parent).toOption.getD d
      (made.write p contents).toOption.getD d)
    empty

end Disk

end Whittle
