import Whittle.FrontEnd.Basic
import Whittle.Term.Outline

/-
  Definitions and uses of names.

  Key definitions include:
    * `Outline.definedNames`
    * `Outline.usedName?`
    * `Outline.links`
    * `Outline.relations`

  Statements that load a name go with the statements that
  define it.  Parameters go with the uses below the node that
  they belong to.
-/

------------------------------------------------------------
-- Names
------------------------------------------------------------

namespace Whittle

namespace Outline

/- The term of a node. -/
def term
    (o : Outline)
    (i : Nat) : Term :=
  (o.terms[i]?).getD .blank

/- The statement around a node, or else the node itself. -/
def enclosingStatement
    (o : Outline)
    (i : Nat) : Nat :=
  ((o.tree.path i).reverse.find? fun j =>
      (o.term j).isStatement).getD i

/- The name that an alias of an import binds. -/
def boundName?
    (item : Term) : Option String :=
  match item.word? "asname" with
  | some name =>
      if name.isEmpty then firstName? else some name
  | none => firstName?
where
  firstName? :=
    (item.word? "name").map fun name =>
      String.ofList (name.toList.takeWhile (· ≠ '.'))

/- A name that is loaded, not stored or deleted. -/
def isLoad
    (t : Term) : Bool :=
  (t.part "ctx").label = "Load"

/-
  The names that a node defines, each with the node that goes
  with it.
-/
def definedNames
    (o : Outline)
    (i : Nat) : List (String × Nat) :=
  let t := o.term i
  if t.isDefinition then
    (t.word? "name").toList.map (·, i)
  else if t.isImport then
    ((t.part "names").items.filterMap boundName?).map (·, i)
  else if t.label = "Name" && !isLoad t then
    (t.word? "id").toList.map (·, o.enclosingStatement i)
  else
    []

/- The name of a node that is a parameter. -/
def parameterName?
    (o : Outline)
    (i : Nat) : Option (String × Nat) :=
  let t := o.term i
  if t.label = "arg" then
    (t.word? "arg").map (·, i)
  else
    none

/- The name that a node loads, with the statement around. -/
def usedName?
    (o : Outline)
    (i : Nat) : Option (String × Nat) :=
  let t := o.term i
  if t.label = "Name" && isLoad t then
    (t.word? "id").map (·, o.enclosingStatement i)
  else
    none

end Outline

end Whittle

------------------------------------------------------------
-- Links
------------------------------------------------------------

namespace Whittle

namespace Outline

/- All nodes of an outline by index. -/
def indices
    (o : Outline) : List Nat :=
  List.range o.terms.size

/- Two nodes may be linked: neither lies in the other. -/
def areApart
    (o : Outline)
    (i j : Nat) : Bool :=
  i ≠ j && !o.tree.isBelow i j && !o.tree.isBelow j i

/- A use lies below the node that a parameter belongs to. -/
def isInScope
    (o : Outline)
    (parameter user : Nat) : Bool :=
  (o.tree.parent? parameter).any fun scope =>
    o.tree.isBelow user scope

/- The pairs of a defining node and a using node. -/
def links
    (o : Outline) : List (Nat × Nat) :=
  let uses := o.indices.filterMap o.usedName?
  let usersOf (name : String) :=
    (uses.filter (·.1 = name)).map (·.2)
  let ofDefinitions :=
    (o.indices.flatMap o.definedNames).flatMap
      fun (name, d) => (usersOf name).map fun u => (d, u)
  let ofParameters :=
    (o.indices.filterMap o.parameterName?).flatMap
      fun (name, d) =>
        ((usersOf name).filter (o.isInScope d)).map
          fun u => (d, u)
  (ofDefinitions ++ ofParameters).filter
    fun (d, u) => o.areApart d u

/- Put a node into the set of another one. -/
def insertAt
    (sets : Array (List Nat))
    (i j : Nat) : Array (List Nat) :=
  sets.modify i fun xs =>
    if xs.contains j then xs else xs ++ [j]

/- The relations between the nodes of an outline. -/
def relations
    (o : Outline) : Relations :=
  let blank := Array.replicate o.terms.size []
  o.links.foldl
    (fun r (d, u) =>
      ⟨insertAt r.dependents d u,
        insertAt r.dependencies u d⟩)
    ⟨blank, blank⟩

end Outline

end Whittle
