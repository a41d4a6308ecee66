import Whittle.Tree.Basic

/-
  Structural path queries over trees.

  Key definitions include:
    * `Step`
    * `Step.accepts`
    * `PathQuery`
    * `PathQuery.evaluate`

  A step goes to children or to descendants of the nodes
  selected so far; the first step starts above the root.
-/

------------------------------------------------------------
-- Steps
------------------------------------------------------------

namespace Whittle

/-
  One step of a path.  Without a kind it takes nodes of any
  kind; a position picks one match for each node it starts
  from, counted from one.
-/
structure Step where
  descends : Bool
  kind : Option String
  image : Option String
  position : Option Nat
deriving DecidableEq, Repr

/- A query with the expression it was read from. -/
structure PathQuery where
  expression : String
  steps : List Step
deriving DecidableEq, Repr

namespace Step

/- A node has the kind and the image of a step. -/
def accepts
    (s : Step)
    (t : Tree)
    (i : Nat) : Bool :=
  (s.kind.isNone || s.kind = some (t.kind i)) &&
    (s.image.isNone || s.image = t.image i)

/- The nodes that a step may choose from. -/
def candidates
    (s : Step)
    (t : Tree) : Option Nat → List Nat
  | none => if s.descends then t.walk 0 else [0]
  | some i =>
      if s.descends then (t.walk i).drop 1 else t.children i

/- The nodes that a step chooses from one context. -/
def choose
    (s : Step)
    (t : Tree)
    (context : Option Nat) : List Nat :=
  let found := (s.candidates t context).filter (s.accepts t)
  match s.position with
  | none => found
  | some n => (found.take n).drop (n - 1)

/- Append the nodes that are not there yet. -/
def keepNew
    (seen : List Nat)
    (found : List Nat) : List Nat :=
  found.foldl
    (fun seen i => if seen.contains i then seen else seen ++ [i])
    seen

/- The nodes that a step chooses from all contexts. -/
def apply
    (s : Step)
    (t : Tree)
    (contexts : List (Option Nat)) : List (Option Nat) :=
  (keepNew [] (contexts.flatMap (s.choose t))).map some

end Step

end Whittle

------------------------------------------------------------
-- Evaluation
------------------------------------------------------------

namespace Whittle

namespace PathQuery

/- The nodes that a list of steps selects. -/
def select
    (steps : List Step)
    (t : Tree) : List Nat :=
  (steps.foldl (fun contexts s => s.apply t contexts)
    [none]).filterMap id

/- The nodes that a query selects in a tree. -/
def evaluate
    (q : PathQuery)
    (t : Tree) : List Nat :=
  select q.steps t

end PathQuery

end Whittle
