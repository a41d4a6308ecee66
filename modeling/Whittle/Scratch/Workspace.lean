import Whittle.Scratch.Basic

/-
  The files of a run, which are accepted together.

  Key definitions include:
    * `Workspace`
    * `Workspace.commitAll`
    * `Workspace.rollBackAll`
    * `Workspace.fingerprint`
-/

------------------------------------------------------------
-- Workspaces
------------------------------------------------------------

namespace Whittle

/- The files of a run and what they lie on. -/
structure Workspace where
  host : Host
  scratches : List Scratch

namespace Workspace

/- Work on the host of the files. -/
def onHost
    {α : Type}
    (work : Work Host α) : Work Workspace α :=
  fun w =>
    let (result, host) := work w.host
    (result, { w with host := host })

/-
  Change files one after the other until one fails.  Changes
  made so far are kept.
-/
def changeEach
    (change : Scratch → Work Host Scratch) :
    List Scratch → Host →
      Except Failure Unit × List Scratch × Host
  | [], h => (.ok (), [], h)
  | s :: rest, h =>
      match change s h with
      | (.error e, h) => (.error e, s :: rest, h)
      | (.ok s, h) =>
          let (result, rest, h) := changeEach change rest h
          (result, s :: rest, h)

/- Do work for each file in turn. -/
def forEach
    (work : Scratch → Work Host Unit) : Work Workspace Unit := do
  let w ← get
  onHost (w.scratches.forM work)

end Workspace

end Whittle

------------------------------------------------------------
-- Accepting And Restoring
------------------------------------------------------------

namespace Whittle

namespace Workspace

/- The trees of the files that have been accepted. -/
def roots
    (w : Workspace) : List Parsed :=
  w.scratches.filterMap (·.root)

/-
  Read all files, and accept them if that succeeds.  If one
  of them cannot be parsed nothing is accepted.  Whatever has
  been read, but not accepted, is forgotten in any case.
-/
def commitAll
    (r : SourceRules) :
    Work Workspace (Option (List Parsed)) :=
  fun w =>
    let (prepared, scratches, host) :=
      changeEach (Scratch.prepare r) w.scratches w.host
    let (accepted, scratches, host) :=
      match prepared with
      | .error e => (Except.error e, scratches, host)
      | .ok () => changeEach Scratch.accept scratches host
    let w : Workspace := ⟨host, scratches.map Scratch.forget⟩
    match accepted with
    | .ok () => (.ok (some w.roots), w)
    | .error .unparsable => (.ok none, w)
    | .error e => (.error e, w)

/- Restore the accepted contents of all files. -/
def rollBackAll : Work Workspace Unit :=
  forEach Scratch.rollBack

/- Give up the accepted contents of all files. -/
def closeAll
    (w : Workspace) : Workspace :=
  { w with scratches := w.scratches.map Scratch.close }

end Workspace

end Whittle

------------------------------------------------------------
-- Contents
------------------------------------------------------------

namespace Whittle

namespace Workspace

/- The contents of all files, in order. -/
def contents : Work Workspace (List Bytes) := do
  let w ← get
  onHost (w.scratches.mapM fun s => Host.readBytes s.path)

/- The bytes that tell the contents of all files apart. -/
def fingerprint
    (contents : List Bytes) : Bytes :=
  contents.flatMap Scratch.fingerprint

/- The first length that does not fit into eight bytes. -/
def lengthLimit : Nat := 18446744073709551616

/-
  What contents are remembered by.  The length of each file
  has to fit into the eight bytes that tell it.
-/
def key
    (contents : List Bytes) : Except Failure Bytes :=
  if contents.all fun bs => bs.length < lengthLimit then
    .ok (fingerprint contents)
  else
    .error .notSupported

/- The number of bytes of all files. -/
def size : Work Workspace Nat := do
  let all ← contents
  pure (total (all.map List.length))

/- The contents of all files that were accepted last. -/
def snapshots
    (w : Workspace) : List Bytes :=
  w.scratches.map fun s => s.snapshot.getD []

/- The number of bytes that have been accepted. -/
def committedSize
    (w : Workspace) : Nat :=
  total (w.snapshots.map List.length)

/- Every file can be read into a tree. -/
def areParseable
    (r : SourceRules)
    (h : Host) :
    List Scratch → Except Failure Bool
  | [] => .ok true
  | s :: rest =>
      match s.isParseable r h with
      | .ok true => areParseable r h rest
      | other => other

end Workspace

end Whittle
