import Whittle.Term.Basic
import Whittle.Text.Charset
import Whittle.Tree.Basic

/-
  The tree of a term.

  Key definitions include:
    * `columnOf`
    * `Extent.span`
    * `Outline`
    * `Outline.grow`
    * `Tree.settle`
    * `Outline.ofTerm`

  Every term with an extent becomes a node, below the node of
  the next term around it that has one.  Then every node is
  widened to cover its children, which are put in order.
-/

------------------------------------------------------------
-- Columns
------------------------------------------------------------

namespace Whittle

/-
  The number of whole characters in the first bytes of a
  line.
-/
def charactersIn
    (line : Text)
    (bytes : Nat) : Nat :=
  (decodeIgnoring ((Utf8.encode line).take bytes)).length

/-
  The number of characters before a place.  On a line that
  the text does not have, bytes are taken for characters.
-/
def columnOf
    (ls : Array Text)
    (p : Place) : Nat :=
  match ls[p.line - 1]? with
  | none => p.bytes
  | some line => charactersIn line p.bytes

/- The span of an extent in a text with the given lines. -/
def Extent.span
    (ls : Array Text)
    (e : Extent) : Span :=
  .ofNumbers e.first.line (columnOf ls e.first + 1)
    e.last.line (columnOf ls e.last)

end Whittle

------------------------------------------------------------
-- Growing
------------------------------------------------------------

namespace Whittle

/- A tree with the terms that its nodes were made from. -/
structure Outline where
  tree : Tree
  terms : Array Term
deriving Inhabited

namespace Outline

/- An outline that holds the node of the whole text only. -/
def start
    (name : String)
    (whole : Term) : Outline where
  tree :=
    ((Tree.empty 0 name).add "Module" (.ofNumbers 1 1 1 1)
      none none).2
  terms := #[whole]

/- Append the node of a term with an extent. -/
def push
    (o : Outline)
    (ls : Array Text)
    (parent : Nat)
    (t : Term)
    (e : Extent) : Outline where
  tree :=
    (o.tree.add t.label (e.span ls) (some (o.tree.node parent))
      t.image?).2
  terms := o.terms.push t

mutual

/- Append the nodes of a term, itself included. -/
def grow
    (ls : Array Text)
    (parent : Nat)
    (o : Outline) : Term → Outline
  | .blank => o
  | .word _ => o
  | .several items => growAll ls parent o items
  | .node label none parts =>
      if (Term.node label none parts).isAtomic then
        o
      else
        growParts ls parent o parts
  | .node label (some e) parts =>
      let t := Term.node label (some e) parts
      let grown := o.push ls parent t e
      if t.isAtomic then
        grown
      else
        growParts ls o.tree.size grown parts

/- Append the nodes of a sequence of terms. -/
def growAll
    (ls : Array Text)
    (parent : Nat)
    (o : Outline) : List Term → Outline
  | [] => o
  | t :: rest => growAll ls parent (grow ls parent o t) rest

/- Append the nodes of the parts of a term. -/
def growParts
    (ls : Array Text)
    (parent : Nat)
    (o : Outline) : List (String × Term) → Outline
  | [] => o
  | (_, t) :: rest =>
      growParts ls parent (grow ls parent o t) rest

end

end Outline

end Whittle

------------------------------------------------------------
-- Settling
------------------------------------------------------------

namespace Whittle

namespace Tree

/- The least span over a non-empty list of nodes. -/
def hullOf
    (t : Tree)
    (first : Nat)
    (more : List Nat) : Span :=
  more.foldl (fun s i => s.hull (t.span i)) (t.span first)

/-
  Put the children of a node in order of their begin and let
  the node cover them.  The root covers nothing else.
-/
def settleNode
    (t : Tree)
    (i : Nat) : Tree :=
  let sorted :=
    (t.children i).mergeSort fun a b =>
      (t.span a).first.atMost (t.span b).first
  match sorted with
  | [] => t
  | first :: more =>
      let cover := t.hullOf first more
      let span :=
        if i = 0 then cover else (t.span i).hull cover
      t.modify i fun e =>
        { e with span := span, children := sorted }

/- Settle all nodes below an index, the last one first. -/
def settleBelow
    (t : Tree) : Nat → Tree
  | 0 => t
  | i + 1 => settleBelow (t.settleNode i) i

/- Settle all nodes of a tree. -/
def settle
    (t : Tree) : Tree :=
  t.settleBelow t.size

end Tree

namespace Outline

/- The outline of the term that a whole text was read as. -/
def ofTerm
    (name : String)
    (text : Text)
    (whole : Term) : Outline :=
  let ls := text.lines.toArray
  let grown := growParts ls 0 (start name whole) whole.parts
  { grown with tree := grown.tree.settle }

end Outline

end Whittle
