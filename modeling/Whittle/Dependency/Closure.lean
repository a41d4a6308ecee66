import Whittle.Dependency.Graph

/-
  Everything that has to go together with a node.

  Key definitions include:
    * `Memo`
    * `Dependents.closure`
    * `Dependents.closureOfAll`

  Results are kept in a memo.  A node that is being worked on
  counts as known with the empty set, so a cycle ends at the
  node where it was entered.
-/

------------------------------------------------------------
-- Closures
------------------------------------------------------------

namespace Whittle

/- The closures that are known already. -/
abbrev Memo :=
  Std.TreeMap NodeId NodeSet

namespace Dependents

/-
  The closure of a node, and what is known after working it
  out.  `fuel` bounds the depth of the search.
-/
def closureFrom
    (g : Dependents) :
    (fuel : Nat) → Memo → NodeId → NodeSet × Memo
  | 0, memo, n => ((memo[n]?).getD [], memo)
  | fuel + 1, memo, n =>
      match memo[n]? with
      | some found => (found, memo)
      | none =>
          let (below, memo) :=
            (g.of n).foldl
              (fun (found, memo) dependent =>
                let (more, memo) :=
                  closureFrom g fuel memo dependent
                (found ++ more, memo))
              ([], memo.insert n [])
          let found := NodeSet.ofList (n :: below)
          (found, memo.insert n found)

/-
  The closure of a node.  Only nodes with an entry have
  dependents, so no path without repetition is longer than
  the number of entries and one more node.
-/
def closure
    (g : Dependents)
    (memo : Memo)
    (n : NodeId) : NodeSet × Memo :=
  g.closureFrom (g.size + 1) memo n

/- The union of the closures of some nodes. -/
def closureOfAll
    (g : Dependents)
    (memo : Memo)
    (ns : List NodeId) : NodeSet × Memo :=
  let (found, memo) :=
    ns.foldl
      (fun (found, memo) n =>
        let (more, memo) := g.closure memo n
        (more ++ found, memo))
      ([], memo)
  (NodeSet.ofList found, memo)

end Dependents

end Whittle
