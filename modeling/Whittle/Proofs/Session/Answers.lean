import Whittle.Proofs.Strategy.Order
import Whittle.Proofs.Work
import Whittle.Session.Trial

/-
  The course that a plan takes when it is carried out.

  Key definitions include:
    * `Session.RemembersSame`
    * `Session.TakesCourse`

  Main statements:
    * `Session.exists_takesCourse`
    * `Session.exists_takesCourse_greedyPass`

  Nothing but the plan itself changes what a strategy
  remembers, so a plan that is carried out takes the course
  that belongs to the outcomes of its requests.
-/

------------------------------------------------------------
-- What A Strategy Remembers
------------------------------------------------------------

namespace Whittle

namespace Session

open Work

variable {σ τ : Type} {u : Setup σ τ}

/- The strategy remembers the same in two states. -/
def RemembersSame
    (s t : Session σ τ) : Prop :=
  t.strategy = s.strategy

instance : Std.Refl (@RemembersSame σ τ) :=
  ⟨fun _ => rfl⟩

instance : IsTrans (Session σ τ) RemembersSame :=
  ⟨fun _ _ _ hst htv => htv.trans hst⟩

theorem remembers_onFiles
    {α : Type}
    (work : Work Workspace α) :
    Moves RemembersSame (onFiles work : Work (Session σ τ) α) :=
  moves_of_state fun _ => rfl

theorem remembers_logEvent
    (kind : String)
    (data : RunLog.Data) :
    Moves RemembersSame (logEvent u kind data) := by
  unfold logEvent onHost
  exact remembers_onFiles _

theorem remembers_modify
    {f : Session σ τ → Session σ τ}
    (hSame : ∀ s, (f s).strategy = s.strategy) :
    Moves RemembersSame (modify f) :=
  fun s => ends_modify (hSame s)

theorem remembers_acceptAll :
    Moves RemembersSame (acceptAll u) := by
  unfold acceptAll
  refine moves_bind (remembers_onFiles _) ?_
  intro roots
  cases roots with
  | none => exact moves_pure _
  | some roots =>
      refine moves_bind (remembers_modify fun _ => rfl) fun _ => ?_
      refine moves_bind moves_get fun _ => ?_
      exact moves_bind (remembers_modify fun _ => rfl)
        (fun _ => moves_pure _)

theorem remembers_tryCommit :
    Moves RemembersSame (tryCommit u) := by
  unfold tryCommit
  refine moves_bind (remembers_onFiles _) fun contents => ?_
  split
  · exact moves_throw _
  · refine moves_bind moves_get fun s => ?_
    split
    · refine moves_bind (remembers_modify fun _ => rfl) fun _ => ?_
      exact moves_bind (remembers_modify fun _ => rfl)
        (fun _ => moves_pure _)
    · refine moves_bind (remembers_modify fun _ => rfl) fun _ => ?_
      refine moves_bind (moves_of_state fun _ => rfl) fun answer => ?_
      refine moves_bind (remembers_onFiles _) fun _ => ?_
      refine moves_bind (remembers_logEvent _ _) fun _ => ?_
      split
      · refine moves_bind remembers_acceptAll fun isAccepted => ?_
        split
        · refine moves_bind moves_get fun _ => ?_
          exact moves_bind (remembers_logEvent _ _)
            (fun _ => moves_pure _)
        · exact moves_pure _
      · exact moves_pure _

theorem remembers_writeTrimmed
    (nodes : List NodeId) :
    Moves RemembersSame (writeTrimmed u nodes) := by
  unfold writeTrimmed
  refine moves_bind moves_get fun s => ?_
  refine moves_bind (remembers_onFiles _) fun unknown => ?_
  split
  · exact moves_bind (remembers_onFiles _)
      (fun _ => remembers_logEvent _ _)
  · exact moves_pure _

theorem remembers_tryRemove
    (nodes : List NodeId) :
    Moves RemembersSame (tryRemove u nodes) := by
  unfold tryRemove
  split
  · exact moves_pure _
  · refine moves_bind (remembers_writeTrimmed nodes) fun _ => ?_
    exact moves_bind remembers_tryCommit (fun _ => moves_pure _)

theorem remembers_tryVariants
    (variants : List (List NodeId)) :
    Moves RemembersSame (tryVariants u variants) := by
  induction variants with
  | nil => exact moves_pure _
  | cons nodes rest ih =>
      unfold tryVariants
      refine moves_bind (remembers_tryRemove nodes) fun outcome => ?_
      split
      · exact ih
      · exact moves_pure _

theorem remembers_tryCleanup
    (isStrict : Bool) :
    Moves RemembersSame (tryCleanup u isStrict) := by
  unfold tryCleanup
  refine moves_bind (remembers_onFiles _) fun _ => ?_
  exact moves_bind remembers_tryCommit (fun _ => moves_pure _)

theorem remembers_forceRemove
    (nodes : List NodeId) :
    Moves RemembersSame (forceRemove u nodes) := by
  unfold forceRemove
  refine moves_bind (remembers_writeTrimmed nodes) fun _ => ?_
  refine moves_bind (remembers_onFiles _) fun _ => ?_
  refine moves_bind (remembers_modify fun _ => rfl) fun _ => ?_
  exact moves_bind remembers_acceptAll (fun _ => moves_pure _)

end Session

end Whittle

------------------------------------------------------------
-- Plans That Are Carried Out
------------------------------------------------------------

namespace Whittle

namespace Session

open Work

variable {σ τ : Type} {u : Setup σ τ}

/-
  Work takes the course of a plan: it leaves what the course
  remembers, and ends as the course does.  A course that is
  left unanswered belongs to a request that fails.
-/
def TakesCourse
    (work : Work (Session σ τ) Outcome)
    (s : Session σ τ)
    (c : Plan.Course τ) : Prop :=
  Ends work s
    (fun outcome t =>
      t.strategy = c.memory ∧ c.ending = .done outcome)
    (fun e t =>
      t.strategy = c.memory ∧
        (c.ending = .unanswered ∨
          ∃ message,
            e = .givenUp message ∧ c.ending = .givenUp message))

/- A request is answered by its outcome, unless it fails. -/
theorem exists_takesCourse_request
    {work : Work (Session σ τ) Outcome}
    (hWork : Moves RemembersSame work)
    {next : Outcome → Plan τ}
    {course : List Outcome → Plan.Course τ}
    {s : Session σ τ}
    (ask : Plan.Ask)
    (hNone : course [] = ⟨[ask], s.strategy, .unanswered⟩)
    (hSome : ∀ answer answers,
      course (answer :: answers) =
        ((next answer).course s.strategy answers).after [ask])
    (hNext : ∀ outcome t, ∃ answers,
      TakesCourse (carryOut u (next outcome)) t
        ((next outcome).course t.strategy answers)) :
    ∃ answers,
      TakesCourse
        (do
          let outcome ← work
          carryOut u (next outcome)) s (course answers) := by
  rcases hRun : work s with ⟨result, t⟩
  have hSame : t.strategy = s.strategy := by
    have hMoves := (hWork s).anyway
    rwa [hRun] at hMoves
  cases result with
  | error e =>
      refine ⟨[], ?_⟩
      refine ends_of_eq_error (bind_of_error hRun) ?_
      rw [hNone]
      exact ⟨hSame, .inl rfl⟩
  | ok outcome =>
      obtain ⟨answers, hTakes⟩ := hNext outcome t
      refine ⟨outcome :: answers, ?_⟩
      rw [hSome, ← hSame]
      exact ends_bind (ends_of_eq_ok hRun hTakes)

/-
  A plan that is carried out takes its course for some
  answers, which are the outcomes of its requests.
-/
theorem exists_takesCourse
    (plan : Plan τ)
    (s : Session σ τ) :
    ∃ answers,
      TakesCourse (carryOut u plan) s
        (plan.course s.strategy answers) := by
  induction plan generalizing s with
  | done outcome => exact ⟨[], ends_pure ⟨rfl, rfl⟩⟩
  | giveUp message =>
      exact ⟨[], ends_throw ⟨rfl, .inr ⟨message, rfl, rfl⟩⟩⟩
  | remember memory rest ih =>
      obtain ⟨answers, hTakes⟩ :=
        ih { s with strategy := memory }
      refine ⟨answers, ends_bind (ends_modify ?_)⟩
      exact hTakes
  | cleanup next ih =>
      exact exists_takesCourse_request (remembers_tryCleanup true)
        .cleanup rfl (fun _ _ => rfl) ih
  | remove nodes next ih =>
      exact exists_takesCourse_request (remembers_tryRemove nodes)
        (.remove nodes) rfl (fun _ _ => rfl) ih
  | offer variants next ih =>
      exact exists_takesCourse_request (remembers_tryVariants variants)
        (.offer variants) rfl (fun _ _ => rfl) ih
  | force nodes next ih =>
      exact exists_takesCourse_request (remembers_forceRemove nodes)
        (.force nodes) rfl (fun _ _ => rfl) ih

/- A pass of the greedy strategy over the accepted trees. -/
theorem exists_takesCourse_greedyPass
    {u : Setup σ Greedy.Memory}
    (hGreedy : u.strategy = greedy)
    (s : Session σ Greedy.Memory) :
    ∃ answers,
      TakesCourse (singlePass u) s
        ((Greedy.pass s.strategy (.ofParsed s.roots)
          (s.roots.map (·.tree))).course s.strategy answers) := by
  obtain ⟨answers, hTakes⟩ :=
    exists_takesCourse (u := u)
      (Greedy.pass s.strategy (.ofParsed s.roots)
        (s.roots.map (·.tree))) s
  refine ⟨answers, ends_bind (ends_get ?_)⟩
  rw [hGreedy]
  exact hTakes

end Session

end Whittle
