import Whittle.Query.Path
import Whittle.Strategy.Plan

/-
  The query strategy.

  Key definitions include:
    * `selectNodes`
    * `byQuery`

  Every node that a query selects is dropped at once, and the
  run ends.
-/

------------------------------------------------------------
-- Dropping What A Query Selects
------------------------------------------------------------

namespace Whittle

/- The nodes that a query selects in some trees. -/
def selectNodes
    (q : PathQuery)
    (ts : List Tree) : List NodeId :=
  ts.flatMap fun t => (q.evaluate t).map t.node

/- The strategy that drops what a query selects. -/
def byQuery
    (q : PathQuery) : Strategy Unit where
  initial := ()
  pass := fun _ _ ts => .force (selectNodes q ts) .done
  statistics := fun _ => []
  summary := fun _ => []

end Whittle
