import Whittle.Text.Quoted
import Whittle.Tree.Span

/-
  Trees of one parsed file, held as an arena.

  Key definitions include:
    * `NodeId`
    * `NodeEntry`
    * `Tree`
    * `Tree.add`
    * `Tree.childIndex`
    * `Tree.walk`
    * `Tree.explain`

  Nodes are addressed by stable indices.  A node's entry is
  appended before its parent is looked at, so an addition
  that is refused leaves an entry without a parent behind.
-/

------------------------------------------------------------
-- Nodes And Trees
------------------------------------------------------------

namespace Whittle

/- A node, named by the identity of its tree and its index. -/
structure NodeId where
  tree : Nat
  index : Nat
deriving DecidableEq, Repr, Inhabited

instance : Ord NodeId :=
  ⟨compareLex (compareOn NodeId.tree) (compareOn NodeId.index)⟩

instance : Std.TransOrd NodeId :=
  inferInstanceAs
    (Std.TransCmp
      (compareLex (compareOn NodeId.tree)
        (compareOn NodeId.index)))

instance : Std.LawfulEqOrd NodeId where
  eq_of_compare := by
    intro m n hEq
    have hParts :
        (compare m.tree n.tree).then
          (compare m.index n.index) = .eq := hEq
    rw [Ordering.then_eq_eq, Nat.compare_eq_eq,
      Nat.compare_eq_eq] at hParts
    cases m
    cases n
    simpa using hParts

/- What a tree holds of one node, its parent apart. -/
structure NodeEntry where
  kind : String
  image : Option String
  span : Span
  children : List Nat
deriving DecidableEq, Repr, Inhabited

/-
  The arena of one parsed file.  `identity` tells the trees
  of a run apart.
-/
structure Tree where
  identity : Nat
  name : String
  entries : Array NodeEntry
  parents : Array (Option Nat)
deriving DecidableEq, Repr, Inhabited

/- Why a tree refuses to be asked or extended. -/
inductive TreeError where
| foreignParent
| noSuchNode
| notAmongChildren (index : Nat)
deriving DecidableEq, Repr

namespace TreeError

/- The wording of a refusal. -/
def message : TreeError → String
  | foreignParent =>
      "Parent node belongs to a different tree."
  | noSuchNode => "There is no such node."
  | notAmongChildren index =>
      toString index ++ " is not in list"

end TreeError

end Whittle

------------------------------------------------------------
-- Looking At Nodes
------------------------------------------------------------

namespace Whittle

namespace Tree

/- A tree without nodes. -/
def empty
    (identity : Nat)
    (name : String) : Tree :=
  ⟨identity, name, #[], #[]⟩

/- The number of entries. -/
def size
    (t : Tree) : Nat :=
  t.entries.size

/- The entry at an index, a blank one outside the tree. -/
def entry
    (t : Tree)
    (i : Nat) : NodeEntry :=
  (t.entries[i]?).getD default

/- The kind of a node. -/
def kind
    (t : Tree)
    (i : Nat) : String :=
  (t.entry i).kind

/- The image of a node. -/
def image
    (t : Tree)
    (i : Nat) : Option String :=
  (t.entry i).image

/- The span of a node. -/
def span
    (t : Tree)
    (i : Nat) : Span :=
  (t.entry i).span

/- The children of a node, in order. -/
def children
    (t : Tree)
    (i : Nat) : List Nat :=
  (t.entry i).children

/- The parent of a node. -/
def parent?
    (t : Tree)
    (i : Nat) : Option Nat :=
  (t.parents[i]?).join

/- The parent of a node, if the node has a parent entry. -/
def parentEntry
    (t : Tree)
    (i : Nat) : Except TreeError (Option Nat) :=
  match t.parents[i]? with
  | none => .error .noSuchNode
  | some p => .ok p

/- The place of a node among its siblings. -/
def childIndex
    (t : Tree)
    (i : Nat) : Except TreeError Nat :=
  match t.parentEntry i with
  | .error e => .error e
  | .ok none => .ok 0
  | .ok (some p) =>
      if p < t.size then
        match (t.children p).idxOf? i with
        | none => .error (.notAmongChildren i)
        | some k => .ok k
      else
        .error .noSuchNode

/- The handle of a node. -/
def node
    (t : Tree)
    (i : Nat) : NodeId :=
  ⟨t.identity, i⟩

end Tree

end Whittle

------------------------------------------------------------
-- Building
------------------------------------------------------------

namespace Whittle

namespace Tree

/- Change the entry of one node. -/
def modify
    (t : Tree)
    (i : Nat)
    (f : NodeEntry → NodeEntry) : Tree :=
  { t with entries := t.entries.modify i f }

/- Append the entry of a node that has no children yet. -/
def pushEntry
    (t : Tree)
    (kind : String)
    (span : Span)
    (image : Option String) : Tree :=
  { t with entries := t.entries.push ⟨kind, image, span, []⟩ }

/-
  Append a node and link it as the last child of its parent.
  The tree is returned also when the addition is refused.
-/
def add
    (t : Tree)
    (kind : String)
    (span : Span)
    (parent : Option NodeId)
    (image : Option String) : Except TreeError Nat × Tree :=
  let index := t.size
  let grown := t.pushEntry kind span image
  match parent with
  | none =>
      (.ok index,
        { grown with parents := grown.parents.push none })
  | some p =>
      if p.tree ≠ t.identity then
        (.error .foreignParent, grown)
      else
        let placed :=
          { grown with parents := grown.parents.push p.index }
        if p.index < grown.size then
          (.ok index,
            placed.modify p.index fun e =>
              { e with children := e.children ++ [index] })
        else
          (.error .noSuchNode, placed)

end Tree

end Whittle

------------------------------------------------------------
-- Document Order
------------------------------------------------------------

namespace Whittle

namespace Tree

/-
  Visit the nodes on the stack, each before its children.
  `fuel` bounds the number of visits.
-/
def walkStack
    (t : Tree) : (fuel : Nat) → List Nat → List Nat
  | 0, _ => []
  | _ + 1, [] => []
  | fuel + 1, i :: stack =>
      i :: walkStack t fuel (t.children i ++ stack)

/- A node and all its descendants in document order. -/
def walk
    (t : Tree)
    (i : Nat) : List Nat :=
  walkStack t t.size [i]

/- The handles of all nodes below and at the root. -/
def nodes
    (t : Tree) : List NodeId :=
  (t.walk 0).map t.node

/-
  The chain of a node's ancestors, itself included, the root
  first.  `fuel` bounds the number of steps upwards.
-/
def pathFrom
    (t : Tree) : (fuel : Nat) → Nat → List Nat
  | 0, i => [i]
  | fuel + 1, i =>
      match t.parent? i with
      | none => [i]
      | some p => pathFrom t fuel p ++ [i]

/- The nodes from the root down to a node. -/
def path
    (t : Tree)
    (i : Nat) : List Nat :=
  t.pathFrom t.size i

/- A node lies strictly below another one. -/
def isBelow
    (t : Tree)
    (i ancestor : Nat) : Bool :=
  (t.path i).dropLast.contains ancestor

end Tree

end Whittle

------------------------------------------------------------
-- Descriptions
------------------------------------------------------------

namespace Whittle

namespace Tree

/- One step of a description: `Kind[place:image]`. -/
def explainStep
    (t : Tree)
    (i : Nat) : Except TreeError String :=
  match t.childIndex i with
  | .error e => .error e
  | .ok place =>
      let suffix :=
        match t.image i with
        | none => ""
        | some image => ":" ++ image
      .ok (t.kind i ++ "[" ++ toString (place + 1) ++
        suffix ++ "]")

/-
  The steps from the root down to a node.  The node is looked
  at first and the root last.
-/
def explainPath
    (t : Tree)
    (i : Nat) : Except TreeError (List String) :=
  match (t.path i).reverse.mapM t.explainStep with
  | .error e => .error e
  | .ok steps => .ok steps.reverse

/- Where a node stands: its place and the path to it. -/
def explain
    (t : Tree)
    (i : Nat) : Except TreeError String :=
  match t.explainPath i with
  | .error e => .error e
  | .ok steps =>
      let place := (t.span i).first
      .ok (toString place.line ++ ":" ++
        toString place.column ++ ": " ++
        " / ".intercalate steps)

/- The name of a tree with its number of nodes. -/
def describe
    (t : Tree) : String :=
  "<Tree " ++ quote t.name ++ " nodes=" ++
    toString t.size ++ ">"

end Tree

end Whittle
