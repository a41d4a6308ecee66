import Whittle.Dependency.Closure
import Whittle.Strategy.Plan

/-
  The greedy strategy.

  Key definitions include:
    * `Greedy.Memory`
    * `Greedy.variantsAt`
    * `Greedy.scan`
    * `greedy`

  Subtrees are cut together with their dependents until no
  step succeeds.  A pass starts near the node of the last
  success, and is done once more from the first node if that
  finds nothing.
-/

------------------------------------------------------------
-- Memory
------------------------------------------------------------

namespace Whittle

namespace Greedy

/-
  How far the last scan came, how many nodes are still to be
  passed over, and how often a scan was started again.
-/
structure Memory where
  position : Nat
  countdown : Int
  restarts : Nat
deriving DecidableEq, Repr, Inhabited

namespace Memory

/- The memory at the start of a pass. -/
def resumed
    (m : Memory) : Memory :=
  ⟨0, m.position, m.restarts⟩

/- The memory at the start of a complete scan. -/
def restarted
    (m : Memory) : Memory :=
  ⟨0, 0, m.restarts + 1⟩

/- The memory after one more node. -/
def advanced
    (m : Memory) : Memory :=
  ⟨m.position + 1, m.countdown - 1, m.restarts⟩

end Memory

end Greedy

end Whittle

------------------------------------------------------------
-- Variants
------------------------------------------------------------

namespace Whittle

namespace Greedy

/- The nodes of some subtrees of a tree. -/
def subtreeNodes
    (t : Tree)
    (is : List Nat) : List NodeId :=
  (is.flatMap t.walk).map t.node

/-
  What is tried at a node: its subtree, unless it is a root,
  then the first half of its children, then the others, each
  with everything that depends on it.
-/
def variantsAt
    (g : Dependents)
    (memo : Memo)
    (t : Tree)
    (i : Nat) : List NodeSet × Memo :=
  let (whole, memo) :=
    if (t.parent? i).isSome then
      let (found, memo) :=
        g.closureOfAll memo (subtreeNodes t [i])
      ([found], memo)
    else
      ([], memo)
  let children := t.children i
  let half := children.length / 2
  let (first, memo) :=
    g.closureOfAll memo (subtreeNodes t (children.take half))
  let (second, memo) :=
    g.closureOfAll memo (subtreeNodes t (children.drop half))
  (whole ++ [first, second], memo)

end Greedy

end Whittle

------------------------------------------------------------
-- Scans
------------------------------------------------------------

namespace Whittle

namespace Greedy

/- The nodes of some trees in the order of a scan. -/
def candidates
    (ts : List Tree) : List (Tree × Nat) :=
  ts.flatMap fun t => (t.walk 0).map (t, ·)

/-
  Offer the variants of each node that is not passed over,
  until an offer makes a difference.  `otherwise` goes on
  after all nodes.
-/
def scan
    (g : Dependents)
    (otherwise : Memory → Memo → Plan Memory) :
    Memory → Memo → List (Tree × Nat) → Plan Memory
  | m, memo, [] => otherwise m memo
  | m, memo, (t, i) :: rest =>
      let m := m.advanced
      if m.countdown ≤ 0 then
        let (variants, memo) := variantsAt g memo t i
        .remember m
          (.offer variants fun outcome =>
            if outcome = .noProgress then
              scan g otherwise m memo rest
            else
              .done outcome)
      else
        scan g otherwise m memo rest

/- One pass over the trees. -/
def pass
    (m : Memory)
    (p : Provider)
    (ts : List Tree) : Plan Memory :=
  let g := Dependents.ofTrees p ts
  let nodes := candidates ts
  let ending (m : Memory) (_ : Memo) : Plan Memory :=
    .remember m (.done .noProgress)
  let again (m : Memory) (memo : Memo) : Plan Memory :=
    scan g ending m.restarted memo nodes
  scan g again m.resumed ∅ nodes

end Greedy

/- The greedy strategy. -/
def greedy : Strategy Greedy.Memory where
  initial := ⟨0, 0, 0⟩
  pass := Greedy.pass
  statistics := fun m => [("restart_count", m.restarts)]
  summary := fun m =>
    ["Greedy strategy restart count: " ++ toString m.restarts]

end Whittle
