/-
  Paths of files.

  Key definitions include:
    * `FilePath`
    * `FilePath.ofText`
    * `FilePath.text`
    * `FilePath.child`
    * `FilePath.resolved`
-/

------------------------------------------------------------
-- Paths
------------------------------------------------------------

namespace Whittle

/-
  A path: whether it starts at the root, and the names of its
  parts.  Empty parts and single dots have been left out.
-/
structure FilePath where
  isAbsolute : Bool
  parts : List String
deriving DecidableEq, Repr, Inhabited

namespace FilePath

/- A part that names something. -/
def isProperPart
    (part : String) : Bool :=
  !part.isEmpty && part ≠ "."

/- The path that a text writes. -/
def ofText
    (s : String) : FilePath :=
  { isAbsolute := s.toList.head? = some '/'
    parts :=
      ((s.toList.splitOn '/').map String.ofList).filter
        isProperPart }

/- The text of a path; a single dot stands for no parts. -/
def text
    (p : FilePath) : String :=
  let joined := "/".intercalate p.parts
  if p.isAbsolute then
    "/" ++ joined
  else if p.parts.isEmpty then
    "."
  else
    joined

/-
  The path of something inside a directory.  A name that
  starts at the root is a path of its own.
-/
def child
    (p : FilePath)
    (name : String) : FilePath :=
  let q := ofText name
  if q.isAbsolute then
    q
  else
    { p with parts := p.parts ++ q.parts }

/- The path of the directory that a path lies in. -/
def parent
    (p : FilePath) : FilePath :=
  { p with parts := p.parts.dropLast }

/-
  Go one part further.  Two dots lead back, but not beyond
  the start of the path.
-/
def step
    (p : FilePath)
    (part : String) : FilePath :=
  if part = ".." then
    match p.parts.getLast? with
    | none =>
        if p.isAbsolute then
          p
        else
          { p with parts := [part] }
    | some last =>
        if last = ".." then
          { p with parts := p.parts ++ [part] }
        else
          p.parent
  else
    { p with parts := p.parts ++ [part] }

/- The path without parts that lead back. -/
def resolved
    (p : FilePath) : FilePath :=
  p.parts.foldl step ⟨p.isAbsolute, []⟩

end FilePath

end Whittle
