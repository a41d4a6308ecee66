import Whittle.Dependency.Graph

/-
  What a strategy asks for.

  Key definitions include:
    * `Outcome`
    * `Plan`
    * `Strategy`

  A plan is a tree of requests.  Each request goes on with the
  outcome that it is answered with, so a plan says what is
  asked for after every sequence of answers.
-/

------------------------------------------------------------
-- Outcomes
------------------------------------------------------------

namespace Whittle

/- The result of a step of a reduction. -/
inductive Outcome where
| progressed
| noProgress
| forcedStop
deriving DecidableEq, Repr, Inhabited

namespace Outcome

/- The wording of an outcome. -/
def text : Outcome → String
  | progressed => "progressed"
  | noProgress => "no-progress"
  | forcedStop => "forced-stop"

end Outcome

end Whittle

------------------------------------------------------------
-- Plans
------------------------------------------------------------

namespace Whittle

/-
  A plan of a strategy with a memory.  What is remembered
  stays so even if a later request fails.
    * `cleanup` trims the gaps of all files.
    * `remove` cuts nodes, if there are any.
    * `offer` tries variants until one makes a difference.
    * `force` cuts nodes without a check.
    * `giveUp` ends the run with a message.
-/
inductive Plan (τ : Type) where
| done (outcome : Outcome)
| remember (memory : τ) (rest : Plan τ)
| cleanup (next : Outcome → Plan τ)
| remove (nodes : List NodeId) (next : Outcome → Plan τ)
| offer (variants : List (List NodeId)) (next : Outcome → Plan τ)
| force (nodes : List NodeId) (next : Outcome → Plan τ)
| giveUp (message : String)

/-
  A strategy: how it starts, what it asks for in one pass over
  the trees, and what it has to say at the end.
-/
structure Strategy (τ : Type) where
  initial : τ
  pass : τ → Provider → List Tree → Plan τ
  statistics : τ → List (String × Nat)
  summary : τ → List String

end Whittle
