import Std.Data.TreeSet
import Whittle.Edit.Cut
import Whittle.Edit.Gap
import Whittle.FrontEnd.Basic
import Whittle.Host

/-
  Files that are edited, with their last accepted contents.

  Key definitions include:
    * `NodeTable`
    * `SourceRules`
    * `Scratch`
    * `Scratch.rollBack`
    * `Scratch.writeTrimmed`
    * `Scratch.writeCleaned`
    * `Scratch.writeWithoutBlankLines`
-/

------------------------------------------------------------
-- Node Tables
------------------------------------------------------------

namespace Whittle

/- Nodes that are looked up by their order. -/
abbrev NodeTable :=
  Std.TreeSet NodeId

namespace NodeTable

def ofList
    (ns : List NodeId) : NodeTable :=
  Std.TreeSet.ofList ns compare

theorem contains_ofList
    (ns : List NodeId)
    (n : NodeId) :
    (ofList ns).contains n = ns.contains n :=
  Std.TreeSet.contains_ofList

theorem contains_filter
    (nodes : NodeTable)
    (test : NodeId → Bool)
    (n : NodeId) :
    (nodes.filter test).contains n =
      (nodes.contains n && test n) := by
  rw [Bool.eq_iff_iff, Std.TreeSet.contains_iff_mem,
    Std.TreeSet.mem_filter]
  simp [Std.TreeSet.get_eq]

end NodeTable

end Whittle

------------------------------------------------------------
-- Scratch Files
------------------------------------------------------------

namespace Whittle

/- How source files are read and cut. -/
structure SourceRules where
  frontEnd : FrontEnd
  charset : Charset
  validates : Bool

/-
  A file that is edited.
    * `snapshot` : the contents that were accepted last, unless
      they have been given up.
    * `root` : what was read from them.
    * `prepared` : what has been read, but not accepted yet.
    * `nodes` : the nodes that may be cut out of the file.
-/
structure Scratch where
  path : FilePath
  snapshot : Option Bytes
  root : Option Parsed
  prepared : Option Parsed
  nodes : NodeTable

namespace Scratch

/- A file of which nothing has been accepted yet. -/
def create
    (path : FilePath) : Scratch :=
  ⟨path, some [], none, none, ∅⟩

/- The error for a snapshot that has been given up. -/
def lostSnapshot
    (s : Scratch) : Failure :=
  .disk ⟨.missing, s.path.text⟩

/- The contents that were accepted last. -/
def readSnapshot
    (s : Scratch) : Work Host Bytes :=
  match s.snapshot with
  | some bs => pure bs
  | none => throw s.lostSnapshot

end Scratch

end Whittle

------------------------------------------------------------
-- Reading
------------------------------------------------------------

namespace Whittle

namespace Scratch

/- Read a text of this file into a tree. -/
def parse
    (r : SourceRules)
    (s : Scratch)
    (t : Text) : Except Failure Parsed :=
  match r.frontEnd.parse s.path.text t with
  | some p => .ok p
  | none => .error .unparsable

/- Read the file into a tree. -/
def load
    (r : SourceRules)
    (s : Scratch) : Work Host Parsed := do
  let t ← Host.readText r.charset s.path
  match parse r s t with
  | .ok p => pure p
  | .error e => throw e

/- The file can be read into a tree. -/
def isParseable
    (r : SourceRules)
    (s : Scratch)
    (h : Host) : Except Failure Bool :=
  match (s.load r).run.run h with
  | (.ok _, _) => .ok true
  | (.error .unparsable, _) => .ok false
  | (.error e, _) => .error e

/- The bytes that tell the contents of a file apart. -/
def fingerprint
    (contents : Bytes) : Bytes :=
  let length := contents.length
  [56, 48, 40, 32, 24, 16, 8, 0].map
    (fun shift => (length >>> shift).toUInt8) ++ contents

end Scratch

end Whittle

------------------------------------------------------------
-- Accepting
------------------------------------------------------------

namespace Whittle

namespace Scratch

/- Read the file into a tree with an identity of its own. -/
def prepare
    (r : SourceRules)
    (s : Scratch) : Work Host Scratch := do
  let p ← s.load r
  let identity ← Host.freshIdentity
  pure { s with prepared := some (p.withIdentity identity) }

/- Accept the contents of a file that has been read. -/
def accept
    (s : Scratch) : Work Host Scratch := do
  match s.prepared with
  | none => throw .unmet
  | some p =>
      let contents ← Host.readBytes s.path
      pure
        { s with
          snapshot := some contents
          root := some p
          nodes := .ofList p.tree.nodes }

/- Forget what has been read, but not accepted. -/
def forget
    (s : Scratch) : Scratch :=
  { s with prepared := none }

/- Restore the contents that were accepted last. -/
def rollBack
    (s : Scratch) : Work Host Unit := do
  let contents ← s.readSnapshot
  Host.writeBytes s.path contents

/- Give up the contents that were accepted last. -/
def close
    (s : Scratch) : Scratch :=
  { s with snapshot := none }

end Scratch

end Whittle

------------------------------------------------------------
-- Writing
------------------------------------------------------------

namespace Whittle

namespace Scratch

/- Erase regions of the file. -/
def erase
    (r : SourceRules)
    (s : Scratch)
    (regions : List Region) : Work Host Unit := do
  let t ← Host.readText r.charset s.path
  match eraseRegions t regions with
  | .error e => throw (.regions e)
  | .ok t => Host.writeText r.charset s.path t

/-
  Restore the accepted contents, then cut nodes of the
  accepted tree.
-/
def writeTrimmed
    (r : SourceRules)
    (s : Scratch)
    (nodes : NodeTable) : Work Host Unit := do
  s.rollBack
  match s.root with
  | none => throw .unmet
  | some p =>
      if nodes.all fun n => s.nodes.contains n then
        let marked (i : Nat) : Bool := nodes.contains (p.tree.node i)
        s.erase r (p.tree.cutRegions marked r.validates)
      else
        throw .unmet

/-
  Restore the accepted contents, then trim the gaps between
  nodes.
-/
def writeCleaned
    (r : SourceRules)
    (s : Scratch) : Work Host Unit := do
  s.rollBack
  let t ← Host.readTextFrom r.charset s.readSnapshot
  match parse r s t with
  | .error e => throw e
  | .ok p =>
      match p.tree.gapRegions t.lines r.validates
          r.frontEnd.isRemovableGap with
      | .error _ => throw .outOfText
      | .ok regions => s.erase r regions

/-
  Restore the accepted contents, then drop blank lines.
-/
def writeWithoutBlankLines
    (r : SourceRules)
    (s : Scratch) : Work Host Unit := do
  s.rollBack
  let t ← Host.readText r.charset s.path
  Host.writeText r.charset s.path (Text.withoutBlankLines t)

end Scratch

end Whittle
