import Whittle.Failure

/-
  What a run can see and change outside of itself.

  Key definitions include:
    * `Host`
    * `Work`
    * `Host.readText`
    * `Host.writeText`

  Work goes on with a state, and keeps what has been done so
  far when it fails.
-/

------------------------------------------------------------
-- The Host
------------------------------------------------------------

namespace Whittle

/-
  The files, the lines that have been printed and those that
  have been printed as warnings, each with the last one
  first, and the number of trees that have been read.
-/
structure Host where
  disk : Disk
  printed : List String
  warned : List String
  treeCount : Nat
deriving Inhabited

/- Work on a state, which may fail. -/
abbrev Work (σ : Type) :=
  ExceptT Failure (StateM σ)

namespace Host

/- A host with the given files, where nothing has happened yet. -/
def ofDisk
    (d : Disk) : Host :=
  ⟨d, [], [], 0⟩

/- Lines as they appear, each with a line end. -/
def linesText
    (ls : List String) : String :=
  String.join (ls.reverse.map (· ++ "\n"))

/- Everything that has been printed. -/
def stdout
    (h : Host) : String :=
  linesText h.printed

/- Everything that has been printed as a warning. -/
def stderr
    (h : Host) : String :=
  linesText h.warned

end Host

end Whittle

------------------------------------------------------------
-- Work On A Host
------------------------------------------------------------

namespace Whittle

namespace Host

/- Go on with a value, or fail with an error of the disk. -/
def orFail
    {α : Type} : Except DiskError α → Work Host α
  | .ok a => pure a
  | .error e => throw (.disk e)

/- Print a line. -/
def print
    (line : String) : Work Host Unit :=
  modify fun h => { h with printed := line :: h.printed }

/- Print a line as a warning. -/
def warn
    (line : String) : Work Host Unit :=
  modify fun h => { h with warned := line :: h.warned }

/- The contents of a file. -/
def readBytes
    (p : FilePath) : Work Host Bytes := do
  let h ← get
  orFail (h.disk.read p)

/- Give a file new contents. -/
def writeBytes
    (p : FilePath)
    (contents : Bytes) : Work Host Unit := do
  let h ← get
  let d ← orFail (h.disk.write p contents)
  set { h with disk := d }

/- Copy the contents of a file. -/
def copyFile
    (source target : FilePath) : Work Host Unit := do
  let h ← get
  let d ← orFail (h.disk.copy source target)
  set { h with disk := d }

/- An identity that no other tree of the run has. -/
def freshIdentity : Work Host Nat := do
  let h ← get
  set { h with treeCount := h.treeCount + 1 }
  pure h.treeCount

end Host

end Whittle

------------------------------------------------------------
-- Texts In A Charset
------------------------------------------------------------

namespace Whittle

/-
  The text that some bytes write in a charset, with its line
  ends unified.
-/
def Charset.decode
    (charset : Charset)
    (bs : Bytes) : Except Failure Text :=
  match charset with
  | .misnamed => .error .wrongKind
  | .unknown => .error .unknownCharset
  | .known codec =>
      match codec.decode? bs with
      | none => .error .undecodable
      | some t => .ok t.unifyLineEnds

/- The bytes that a text is written as in a charset. -/
def Charset.encode
    (charset : Charset)
    (t : Text) : Except Failure Bytes :=
  match charset with
  | .misnamed => .error .wrongKind
  | .unknown => .error .unknownCharset
  | .known codec =>
      match codec.encode? t with
      | none => .error .unencodable
      | some bs => .ok bs

namespace Host

/-
  The text of some contents.  That the charset has a name is
  checked before they are read, and its codec is looked up
  after that.
-/
def readTextFrom
    (charset : Charset)
    (contents : Work Host Bytes) : Work Host Text := do
  match charset with
  | .misnamed => throw .wrongKind
  | charset =>
      let bs ← contents
      match charset.decode bs with
      | .ok t => pure t
      | .error e => throw e

/- The text of a file. -/
def readText
    (charset : Charset)
    (p : FilePath) : Work Host Text :=
  readTextFrom charset (readBytes p)

/-
  Write a text to a file.  The file is empty before the text
  is encoded, and stays so if the text has no form.
-/
def writeText
    (charset : Charset)
    (p : FilePath)
    (t : Text) : Work Host Unit := do
  match charset with
  | .misnamed => throw .wrongKind
  | charset =>
      writeBytes p []
      match charset.encode t with
      | .ok bs => writeBytes p bs
      | .error e => throw e

end Host

end Whittle
