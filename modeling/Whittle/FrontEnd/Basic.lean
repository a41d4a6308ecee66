import Whittle.Tree.Basic

/-
  What reducing needs to know of a source language.

  Key definitions include:
    * `Relations`
    * `Parsed`
    * `FrontEnd`

  A front end reads a text into a tree, says which nodes go
  together, and which gaps between nodes may be trimmed.
-/

------------------------------------------------------------
-- Relations Between Nodes
------------------------------------------------------------

namespace Whittle

/-
  For each node the nodes that have to go when it goes, and
  the nodes that it needs to stay valid.  Nodes without an
  entry have none.
-/
structure Relations where
  dependents : Array (List Nat)
  dependencies : Array (List Nat)
deriving DecidableEq, Repr, Inhabited

namespace Relations

/- No node goes together with any other. -/
def none : Relations :=
  ⟨#[], #[]⟩

/- The nodes that have to go when a node goes. -/
def dependentsOf
    (r : Relations)
    (i : Nat) : List Nat :=
  (r.dependents[i]?).getD []

/- The nodes that a node needs. -/
def dependenciesOf
    (r : Relations)
    (i : Nat) : List Nat :=
  (r.dependencies[i]?).getD []

end Relations

end Whittle

------------------------------------------------------------
-- Front Ends
------------------------------------------------------------

namespace Whittle

/-
  A text that has been read.  The relations are worked out
  when they are asked for.
-/
structure Parsed where
  tree : Tree
  relations : Unit → Relations

namespace Parsed

/- Give the tree an identity of its own. -/
def withIdentity
    (p : Parsed)
    (identity : Nat) : Parsed :=
  { p with tree := { p.tree with identity := identity } }

end Parsed

/-
  A source language.  `parse` takes the name of a source and
  its text, and fails if the text is not valid.
-/
structure FrontEnd where
  name : String
  parse : String → Text → Option Parsed
  isRemovableGap : Text → Bool

end Whittle
