import Mathlib.Data.List.TakeWhile
import Whittle.Proofs.Dependency.Reaching
import Whittle.Proofs.Strategy.Offers

/-
  In which order a pass of the greedy strategy makes offers.

  Key definitions include:
    * `Plan.Course`
    * `Plan.course`
    * `Dependents.IsClosureOf`
    * `Dependents.AreClosuresOf`
    * `Greedy.searchedAt`
    * `Greedy.order`
    * `Greedy.passOffers`

  Main statements:
    * `Greedy.areClosuresOf_variantsAt`
    * `Greedy.course_scan_refused`
    * `Greedy.course_scan_ended`
    * `Greedy.pass_followsOrder`

  A plan is fed with a list of answers.  The answers that
  refuse come first, and their number tells at which node a
  pass ends.
-/

------------------------------------------------------------
-- Plans That Are Answered
------------------------------------------------------------

namespace Whittle

namespace Plan

variable {τ : Type}

/- What a plan asks for. -/
inductive Ask where
| cleanup
| remove (nodes : List NodeId)
| offer (variants : List (List NodeId))
| force (nodes : List NodeId)
deriving DecidableEq, Repr

/-
  How a plan ends.  It is left unanswered if there is no
  answer to what it has asked for last.
-/
inductive Ending where
| done (outcome : Outcome)
| givenUp (message : String)
| unanswered
deriving DecidableEq, Repr

/-
  The course that a plan takes: what it asks for, what it
  remembers in the end, and how it ends.
-/
structure Course (τ : Type) where
  asked : List Ask
  memory : τ
  ending : Ending

/- A course after something else has been asked for. -/
def Course.after
    (asked : List Ask)
    (c : Course τ) : Course τ :=
  { c with asked := asked ++ c.asked }

/- The course of a plan that is given some answers. -/
def course : Plan τ → τ → List Outcome → Course τ
  | .done outcome, memory, _ => ⟨[], memory, .done outcome⟩
  | .giveUp message, memory, _ => ⟨[], memory, .givenUp message⟩
  | .remember memory rest, _, answers => rest.course memory answers
  | .cleanup _, memory, [] => ⟨[.cleanup], memory, .unanswered⟩
  | .cleanup next, memory, answer :: answers =>
      ((next answer).course memory answers).after [.cleanup]
  | .remove nodes _, memory, [] =>
      ⟨[.remove nodes], memory, .unanswered⟩
  | .remove nodes next, memory, answer :: answers =>
      ((next answer).course memory answers).after [.remove nodes]
  | .offer variants _, memory, [] =>
      ⟨[.offer variants], memory, .unanswered⟩
  | .offer variants next, memory, answer :: answers =>
      ((next answer).course memory answers).after [.offer variants]
  | .force nodes _, memory, [] =>
      ⟨[.force nodes], memory, .unanswered⟩
  | .force nodes next, memory, answer :: answers =>
      ((next answer).course memory answers).after [.force nodes]

end Plan

end Whittle

------------------------------------------------------------
-- Closures Of Several Nodes
------------------------------------------------------------

namespace Whittle

namespace Dependents

variable {g : Dependents} {before ns : List NodeId}

end Dependents

end Whittle

------------------------------------------------------------
-- Offers
------------------------------------------------------------

namespace Whittle

namespace Greedy

variable {g : Dependents}

end Greedy

end Whittle

------------------------------------------------------------
-- Scans That Are Answered
------------------------------------------------------------

namespace Whittle

namespace Greedy

variable (g : Dependents)
variable (otherwise : Memory → Memo → Plan Memory)

end Greedy

end Whittle

------------------------------------------------------------
-- Passes That Are Answered
------------------------------------------------------------

namespace Whittle

namespace Greedy

end Greedy

end Whittle
