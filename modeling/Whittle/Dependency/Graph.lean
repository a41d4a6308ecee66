import Std.Data.TreeMap
import Whittle.FrontEnd.Basic

/-
  Which nodes have to go when a node goes.

  Key definitions include:
    * `NodeSet`
    * `NodeSet.ofList`
    * `Provider`
    * `Dependents`
    * `Dependents.ofTrees`
-/

------------------------------------------------------------
-- Sets Of Nodes
------------------------------------------------------------

namespace Whittle

/- A set of nodes, in order and without repetition. -/
abbrev NodeSet :=
  List NodeId

namespace NodeSet

/- The order of nodes: by tree, then by index. -/
def isAtMost
    (m n : NodeId) : Bool :=
  m.tree < n.tree || (m.tree = n.tree && m.index ≤ n.index)

/- Drop every element that equals the one after it. -/
def dropRepeats : List NodeId → List NodeId
  | [] => []
  | [n] => [n]
  | m :: n :: rest =>
      if m = n then
        dropRepeats (n :: rest)
      else
        m :: dropRepeats (n :: rest)

def ofList
    (ns : List NodeId) : NodeSet :=
  dropRepeats (ns.mergeSort isAtMost)

theorem mem_dropRepeats
    (n : NodeId)
    (ns : List NodeId) :
    n ∈ dropRepeats ns ↔ n ∈ ns := by
  fun_induction dropRepeats ns with
  | case1 => simp
  | case2 => simp
  | case3 => simp_all
  | case4 => simp_all

theorem mem_ofList
    (n : NodeId)
    (ns : List NodeId) :
    n ∈ ofList ns ↔ n ∈ ns := by
  simp [ofList, mem_dropRepeats]

end NodeSet

end Whittle

------------------------------------------------------------
-- Providers
------------------------------------------------------------

namespace Whittle

/- What is known of the relations between nodes. -/
structure Provider where
  dependents : NodeId → List NodeId
  dependencies : NodeId → List NodeId

namespace Provider

/- A relation of one tree, looked up by the tree's identity. -/
def lookIn
    (known : List (Nat × Relations))
    (relation : Relations → Nat → List Nat)
    (n : NodeId) : List NodeId :=
  match known.lookup n.tree with
  | none => []
  | some r => (relation r n.index).map fun i => ⟨n.tree, i⟩

/- The relations between the nodes of parsed texts. -/
def ofParsed
    (ps : List Parsed) : Provider :=
  let known :=
    ps.map fun p => (p.tree.identity, p.relations ())
  { dependents := lookIn known Relations.dependentsOf
    dependencies := lookIn known Relations.dependenciesOf }

end Provider

end Whittle

------------------------------------------------------------
-- Direct Dependents
------------------------------------------------------------

namespace Whittle

/- The direct dependents of each node that has an entry. -/
abbrev Dependents :=
  Std.TreeMap NodeId (List NodeId)

namespace Dependents

/- The direct dependents of a node. -/
def of
    (g : Dependents)
    (n : NodeId) : List NodeId :=
  (g[n]?).getD []

/- Add direct dependents of a node. -/
def addAll
    (g : Dependents)
    (n : NodeId)
    (dependents : List NodeId) : Dependents :=
  g.insert n (NodeSet.ofList (g.of n ++ dependents))

/- Add what a provider says of one node, both ways. -/
def addNode
    (p : Provider)
    (g : Dependents)
    (n : NodeId) : Dependents :=
  (p.dependencies n).foldl
    (fun g dependency => g.addAll dependency [n])
    (g.addAll n (p.dependents n))

/- Add what a provider says of all nodes of a tree. -/
def addTree
    (p : Provider)
    (g : Dependents)
    (t : Tree) : Dependents :=
  t.nodes.foldl (addNode p) g

/- The direct dependents of all nodes of some trees. -/
def ofTrees
    (p : Provider)
    (ts : List Tree) : Dependents :=
  ts.foldl (addTree p) ∅

end Dependents

end Whittle
