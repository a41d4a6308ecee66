import Whittle.Edit.Region
import Whittle.Tree.Basic

/-
  Cutting marked nodes out of a text.

  Key definitions include:
    * `Span.region`
    * `Tree.cutRegions`
    * `cutNodes`

  A marked node's region covers its whole subtree, so marked
  nodes below it are not cut on their own.
-/

------------------------------------------------------------
-- Cutting
------------------------------------------------------------

namespace Whittle

/- The region that a span covers, its last column included. -/
def Span.region
    (s : Span) : Region :=
  { beginLine := s.first.line - 1
    endLine := s.last.line - 1
    beginColumn := s.first.column - 1
    endColumn := s.last.column }

namespace Tree

/-
  The regions of the topmost marked nodes of a subtree.  With
  `validate`, nodes whose span is not proper are not cut, but
  their children may be.  `fuel` bounds the depth.
-/
def cutFrom
    (t : Tree)
    (marked : Nat → Bool)
    (validate : Bool) : (fuel : Nat) → Nat → List Region
  | 0, _ => []
  | fuel + 1, i =>
      if marked i && (!validate || (t.span i).isProper) then
        [(t.span i).region]
      else
        (t.children i).flatMap (cutFrom t marked validate fuel)

/- The regions that remove the marked nodes of a tree. -/
def cutRegions
    (t : Tree)
    (marked : Nat → Bool)
    (validate : Bool) : List Region :=
  t.cutFrom marked validate t.size 0

end Tree

/- A text without the marked nodes of its tree. -/
def cutNodes
    (t : Tree)
    (marked : Nat → Bool)
    (validate : Bool)
    (text : Text) : Except RegionError Text :=
  eraseRegions text (t.cutRegions marked validate)

end Whittle
