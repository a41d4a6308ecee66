import Whittle.Strategy.Greedy

/-
  Strategies that only try.

  Key definitions include:
    * `Plan.OnlyTries`
    * `Strategy.OnlyTries`
    * `Strategy.NeverForces`

  Main statements:
    * `Greedy.onlyTries_scan`
    * `greedy_onlyTries`
-/

------------------------------------------------------------
-- Plans Without Force
------------------------------------------------------------

namespace Whittle

variable {τ : Type}

/-
  A plan that cuts nothing without a question and does not
  report a forced stop.  What it would do after a forced stop
  does not matter, as no trial ends with one.
-/
inductive Plan.OnlyTries : Plan τ → Prop
| done (outcome : Outcome)
    (hOutcome : outcome ≠ .forcedStop) :
    OnlyTries (.done outcome)
| remember (memory : τ) (rest : Plan τ)
    (hRest : OnlyTries rest) :
    OnlyTries (.remember memory rest)
| cleanup (next : Outcome → Plan τ)
    (hNext : ∀ outcome, outcome ≠ .forcedStop →
      OnlyTries (next outcome)) :
    OnlyTries (.cleanup next)
| remove (nodes : List NodeId) (next : Outcome → Plan τ)
    (hNext : ∀ outcome, outcome ≠ .forcedStop →
      OnlyTries (next outcome)) :
    OnlyTries (.remove nodes next)
| offer (variants : List (List NodeId)) (next : Outcome → Plan τ)
    (hNext : ∀ outcome, outcome ≠ .forcedStop →
      OnlyTries (next outcome)) :
    OnlyTries (.offer variants next)
| giveUp (message : String) :
    OnlyTries (.giveUp message)

/- A strategy whose plans only try. -/
def Strategy.OnlyTries
    (s : Strategy τ) : Prop :=
  ∀ memory provider trees,
    (s.pass memory provider trees).OnlyTries

/-
  A plan that cuts nothing without a question, whatever it
  reports in the end.
-/
inductive Plan.NeverForces : Plan τ → Prop
| done (outcome : Outcome) :
    NeverForces (.done outcome)
| remember (memory : τ) (rest : Plan τ)
    (hRest : NeverForces rest) :
    NeverForces (.remember memory rest)
| cleanup (next : Outcome → Plan τ)
    (hNext : ∀ outcome, outcome ≠ .forcedStop →
      NeverForces (next outcome)) :
    NeverForces (.cleanup next)
| remove (nodes : List NodeId) (next : Outcome → Plan τ)
    (hNext : ∀ outcome, outcome ≠ .forcedStop →
      NeverForces (next outcome)) :
    NeverForces (.remove nodes next)
| offer (variants : List (List NodeId)) (next : Outcome → Plan τ)
    (hNext : ∀ outcome, outcome ≠ .forcedStop →
      NeverForces (next outcome)) :
    NeverForces (.offer variants next)
| giveUp (message : String) :
    NeverForces (.giveUp message)

/- A strategy whose plans never force. -/
def Strategy.NeverForces
    (s : Strategy τ) : Prop :=
  ∀ memory provider trees,
    (s.pass memory provider trees).NeverForces

theorem Plan.OnlyTries.neverForces
    {plan : Plan τ}
    (hTries : plan.OnlyTries) :
    plan.NeverForces := by
  induction hTries with
  | done outcome _ => exact .done outcome
  | remember memory rest _ ih => exact .remember memory rest ih
  | cleanup next _ ih => exact .cleanup next ih
  | remove nodes next _ ih => exact .remove nodes next ih
  | offer variants next _ ih => exact .offer variants next ih
  | giveUp message => exact .giveUp message

theorem Strategy.OnlyTries.neverForces
    {s : Strategy τ}
    (hTries : s.OnlyTries) :
    s.NeverForces :=
  fun memory provider trees =>
    (hTries memory provider trees).neverForces

end Whittle

------------------------------------------------------------
-- The Greedy Strategy
------------------------------------------------------------

namespace Whittle

namespace Greedy

/- A scan only tries if what follows it does. -/
theorem onlyTries_scan
    {g : Dependents}
    {otherwise : Memory → Memo → Plan Memory}
    (hOtherwise : ∀ m memo, (otherwise m memo).OnlyTries)
    (m : Memory)
    (memo : Memo)
    (nodes : List (Tree × Nat)) :
    (scan g otherwise m memo nodes).OnlyTries := by
  induction nodes generalizing m memo with
  | nil => exact hOtherwise m memo
  | cons node rest ih =>
      obtain ⟨t, i⟩ := node
      unfold scan
      dsimp only
      split
      · refine .remember _ _ (.offer _ _ ?_)
        intro outcome hOutcome
        split
        · exact ih _ _
        · exact .done outcome hOutcome
      · exact ih _ _

end Greedy

/- The greedy strategy only tries. -/
theorem greedy_onlyTries :
    greedy.OnlyTries := by
  intro m provider trees
  apply Greedy.onlyTries_scan
  intro m memo
  apply Greedy.onlyTries_scan
  intro m memo
  exact .remember m _ (.done .noProgress Outcome.noConfusion)

end Whittle
