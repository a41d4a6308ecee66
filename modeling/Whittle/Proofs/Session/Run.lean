import Whittle.Proofs.Session.Carrying
import Whittle.Proofs.Session.Kept
import Whittle.Proofs.Session.Trial

/-
  Reductions go forward by steps.

  Key definitions include:
    * `Session.IsRestored`

  Main statements:
    * `Session.advances_carryOut`
    * `Session.advances_passes`
    * `Session.ends_finish`
    * `Session.ends_reduce`
-/

------------------------------------------------------------
-- Plans
------------------------------------------------------------

namespace Whittle

namespace Session

open Work

variable {σ τ α : Type} {u : Setup σ τ} {mayForce : Prop}

theorem advances_get :
    Advances u mayForce get (fun _ => True) :=
  fun s _ hSettled =>
    ends_get ⟨Std.Refl.refl s, hSettled, trivial⟩

/-
  A plan advances if it only tries, or if it may force.  It
  ends with a forced stop only if it may force.
-/
theorem advances_carryOut
    {plan : Plan τ}
    (hPlan : mayForce ∨ plan.OnlyTries) :
    Advances u mayForce (carryOut u plan)
      (fun outcome => outcome = .forcedStop → mayForce) := by
  have hTried :
      ∀ {next : Outcome → Plan τ} {outcome : Outcome},
        (mayForce ∨ ∀ o, o ≠ .forcedStop →
          (next o).OnlyTries) →
        outcome ≠ .forcedStop →
        mayForce ∨ (next outcome).OnlyTries :=
    fun hNext hOutcome =>
      hNext.imp id (fun h => h _ hOutcome)
  induction plan with
  | done outcome =>
      apply advances_pure
      intro hStop
      rcases hPlan with hForce | hTries
      · exact hForce
      · cases hTries with
        | done _ hOutcome => exact absurd hStop hOutcome
  | remember memory rest ih =>
      refine advances_bind (P := fun _ => True) ?_ ?_
      · intro s _ hSettled
        exact ends_modify
          ⟨(Step.remember s memory).follows, hSettled, trivial⟩
      · intro _ _
        apply ih
        rcases hPlan with hForce | hTries
        · exact .inl hForce
        · cases hTries with
          | remember _ _ hRest => exact .inr hRest
  | cleanup next ih =>
      refine advances_bind (advances_tryCleanup true) ?_
      intro outcome hOutcome
      apply ih
      refine hTried ?_ hOutcome
      rcases hPlan with hForce | hTries
      · exact .inl hForce
      · cases hTries with
        | cleanup _ hNext => exact .inr hNext
  | remove nodes next ih =>
      refine advances_bind (advances_tryRemove nodes) ?_
      intro outcome hOutcome
      apply ih
      refine hTried ?_ hOutcome
      rcases hPlan with hForce | hTries
      · exact .inl hForce
      · cases hTries with
        | remove _ _ hNext => exact .inr hNext
  | offer variants next ih =>
      refine advances_bind (advances_tryVariants variants) ?_
      intro outcome hOutcome
      apply ih
      refine hTried ?_ hOutcome
      rcases hPlan with hForce | hTries
      · exact .inl hForce
      · cases hTries with
        | offer _ _ hNext => exact .inr hNext
  | force nodes next ih =>
      have hForce : mayForce := by
        rcases hPlan with hForce | hTries
        · exact hForce
        · cases hTries
      refine advances_bind (advances_forceRemove hForce nodes) ?_
      exact fun outcome _ => ih outcome (.inl hForce)
  | giveUp message => exact advances_throw _

theorem advances_singlePass
    (hStrategy : mayForce ∨ u.strategy.OnlyTries) :
    Advances u mayForce (singlePass u)
      (fun outcome => outcome = .forcedStop → mayForce) := by
  refine advances_bind advances_get ?_
  intro s _
  apply advances_carryOut
  exact hStrategy.imp id (fun hTries => hTries _ _ _)

end Session

end Whittle

------------------------------------------------------------
-- Passes
------------------------------------------------------------

namespace Whittle

namespace Session

open Work

variable {σ τ : Type} {u : Setup σ τ} {mayForce : Prop}

theorem advances_printProgress
    (moment : String)
    (size nodes : Int) :
    Advances u mayForce (printProgress moment size nodes)
      (fun _ => True) := by
  refine advances_bind advances_get ?_
  exact fun s _ => advances_onHost (Host.moves_print _)

theorem advances_logEvent
    (kind : String)
    (data : RunLog.Data) :
    Advances u mayForce (logEvent u kind data)
      (fun _ => True) :=
  advances_onHost (RunLog.adds_event kind data)

theorem advances_turn
    (hStrategy : mayForce ∨ u.strategy.OnlyTries)
    (size nodes number : Nat) :
    Advances u mayForce (turn u size nodes number)
      (fun outcome => outcome = .forcedStop → mayForce) := by
  refine advances_bind
    (P := fun outcome => outcome = .forcedStop → mayForce) ?_ ?_
  · unfold passOrCleanup
    split
    · intro s hApart hSettled
      refine (advances_tryCleanup true s hApart hSettled).mono
        ?_ (fun _ _ h => h)
      rintro outcome t ⟨hFollows, hSettled', hOutcome⟩
      exact ⟨hFollows, hSettled',
        fun hStop => absurd hStop hOutcome⟩
    · exact advances_singlePass hStrategy
  · intro outcome hOutcome
    refine advances_bind advances_get ?_
    intro s _
    refine advances_bind (advances_logEvent _ _) ?_
    intro _ _
    refine advances_bind (advances_printProgress _ _ _) ?_
    exact fun _ _ => advances_pure hOutcome

theorem advances_passes
    (hStrategy : mayForce ∨ u.strategy.OnlyTries)
    (size nodes fuel before : Nat) :
    Advances u mayForce (passes u size nodes fuel before)
      (fun ending => ending.2 = true → mayForce) := by
  induction fuel generalizing before with
  | zero => exact advances_throw _
  | succ fuel ih =>
      refine advances_bind
        (advances_turn hStrategy size nodes _) ?_
      intro outcome hOutcome
      split
      · rename_i hStop
        exact advances_pure (fun _ => hOutcome hStop)
      · split
        · exact ih _
        · exact advances_pure (fun hStop => by cases hStop)

theorem advances_passLoop
    (hStrategy : mayForce ∨ u.strategy.OnlyTries)
    (bound : Nat) :
    Advances u mayForce (passLoop u bound)
      (fun ending => ending.2 = true → mayForce) := by
  refine advances_bind advances_get ?_
  intro s _
  refine advances_bind (advances_onHost (Host.moves_print _)) ?_
  intro _ _
  refine advances_bind (advances_logEvent _ _) ?_
  intro _ _
  refine advances_bind (advances_tryCleanup false) ?_
  intro _ _
  refine advances_bind (advances_printProgress _ _ _) ?_
  intro _ _
  exact advances_passes hStrategy _ _ bound 0

end Session

end Whittle

------------------------------------------------------------
-- Finishing
------------------------------------------------------------

namespace Whittle

namespace Session

open Work

variable {σ τ : Type} {u : Setup σ τ} {mayForce : Prop}

/- The files hold what was accepted last. -/
def IsRestored
    (s : Session σ τ) : Prop :=
  s.Holds s.workspace.snapshots

theorem IsRestored.adds
    {s : Session σ τ}
    {h : Host}
    (hRestored : s.IsRestored)
    (hApart : s.IsApart u)
    (hAdds : u.log.Adds s.workspace.host h) :
    (s.withHost h).IsRestored :=
  Holds.adds hRestored hApart hAdds

/- Steps, if the files are apart from the log. -/
def Leads
    (u : Setup σ τ)
    (mayForce : Prop)
    (s t : Session σ τ) : Prop :=
  s.IsApart u → Follows u mayForce s t

instance : Std.Refl (Leads u mayForce) :=
  ⟨fun s _ => Std.Refl.refl s⟩

instance : IsTrans (Session σ τ) (Leads u mayForce) := by
  refine ⟨fun s t v hst htv hApart => ?_⟩
  have hFollows := hst hApart
  exact hFollows.trans (htv (hApart.follows hFollows))

theorem leads_of_follows
    {α : Type}
    {work : Work (Session σ τ) α}
    (hWork : Moves (Follows u mayForce) work) :
    Moves (Leads u mayForce) work :=
  fun s => (hWork s).mono (fun _ _ h _ => h) (fun _ _ h _ => h)

theorem leads_tryCommit :
    Moves (Leads u mayForce) (tryCommit u) := by
  apply moves_of_guard
  intro s hApart
  refine (tries_tryCommit hApart).mono ?_ ?_
  · exact fun _ _ hTries => hTries.follows
  · exact fun _ _ hTries => hTries.follows

theorem carriesWrites_leads :
    CarriesWrites (Leads u mayForce) (Leads u mayForce) where
  host hWork := leads_of_follows (ends_onHost_grows hWork)
  remember s memory _ := (Step.remember s memory).follows

theorem carries_leads :
    Carries u mayForce (Leads u mayForce) (Leads u mayForce) := by
  have hForced :
      mayForce → ∀ nodes,
        Moves (Leads u mayForce) (forceRemove u nodes) := by
    intro hForce nodes
    refine moves_bind
      (carriesWrites_leads.goes_writeTrimmed nodes) ?_
    intro _ t
    refine (forces_forceCommit t).mono ?_ ?_
    · exact fun _ _ hForces _ => hForces.follows hForce
    · exact fun _ _ hForces _ => hForces.follows hForce
  exact
    { carriesWrites_leads.carriesReduction leads_tryCommit
        hForced with
      remind := fun s memory _ => (Step.remind s memory).follows }

/- Restoring all files at any moment of a reduction. -/
theorem ends_rollBackAll
    {s : Session σ τ}
    (hKept : s.IsKept u mayForce) :
    Ends (onFiles Workspace.rollBackAll) s
      (fun _ t => Follows u mayForce s t ∧ t.IsRestored ∧
        t.trail = s.trail ∧
        t.workspace.snapshots = s.workspace.snapshots)
      (fun _ _ => False) := by
  apply ends_onFiles
  refine (Workspace.ends_rollBackAll hKept.snapshots hKept.files
    hKept.distinct).mono ?_ (fun _ _ h => h)
  rintro _ _ ⟨h, hGrows, rfl, hHolds⟩
  exact ⟨(Step.write s h hGrows).follows, hHolds, rfl, rfl⟩

/- After the last trials the files are restored. -/
theorem ends_finish
    {s : Session σ τ}
    (size nodes : Nat)
    (hKept : s.IsKept u mayForce) :
    Ends (finish u size nodes) s
      (fun _ t => Leads u mayForce s t ∧ t.IsRestored)
      (fun _ t => Leads u mayForce s t) := by
  refine ends_bind_of_moves (carries_leads.cleanup false) ?_
  intro _ t₁ h₁
  have hKept₁ := hKept.follows (h₁ hKept.apart)
  refine ends_bind_of_moves (carries_leads.goes_printProgress _ _ _) ?_
  intro _ t₂ h₂
  have hKept₂ := hKept₁.follows (h₂ hKept₁.apart)
  refine ends_bind_of_moves moves_get ?_
  intro t t₃ h₃
  have hKept₃ := hKept₂.follows (h₃ hKept₂.apart)
  refine ends_bind_of_moves (carries_leads.goes_stripEach _) ?_
  intro _ t₄ h₄
  have hKept₄ := hKept₃.follows (h₄ hKept₃.apart)
  refine ends_bind_of_moves (carries_leads.goes_printProgress _ _ _) ?_
  intro _ t₅ h₅
  have hKept₅ := hKept₄.follows (h₅ hKept₄.apart)
  refine (ends_rollBackAll hKept₅).mono ?_ ?_
  · exact fun _ _ hBack => ⟨fun _ => hBack.1, hBack.2.1⟩
  · exact fun _ _ hFalse => hFalse.elim

end Session

end Whittle

------------------------------------------------------------
-- Reducing
------------------------------------------------------------

namespace Whittle

namespace Session

open Work

variable {σ τ : Type} {u : Setup σ τ} {mayForce : Prop}

theorem logs_publish
    (r : Report) :
    Moves (Logs u) (publish u r) := by
  unfold publish
  refine moves_bind moves_get ?_
  intro s
  refine moves_bind
    (logs_onHost (moves_forM Host.moves_print _)) ?_
  intro _
  refine moves_bind
    (logs_onHost (moves_forM Host.moves_print _)) ?_
  intro _
  refine moves_bind (logs_onHost (RunLog.adds_event _ _)) ?_
  intro _
  refine moves_bind (logs_onHost (RunLog.adds_store _)) ?_
  exact fun _ => moves_pure _

/-
  What a report says of the files that it is made for.  After
  a forced stop they hold what was tried last, and otherwise
  what was accepted last.
-/
structure Reports
    (mayForce : Prop)
    (s : Session σ τ)
    (r : Report) : Prop where
  size : r.finalSize = s.totalSize
  forced : r.isForced = true → mayForce ∧ s.IsSettled
  restored : r.isForced = false → s.IsRestored

/- The report is made and published in the end. -/
theorem ends_report
    (mayForce : Prop)
    {s : Session σ τ}
    {isForced : Bool}
    (size nodes passCount : Nat)
    (hApart : s.IsApart u)
    (hForced : isForced = true → mayForce ∧ s.IsSettled)
    (hRestored : isForced = false → s.IsRestored) :
    Ends
      (do
        let s ← get
        let r := report u size nodes passCount isForced s
        publish u r
        pure r)
      s
      (fun r t => Follows u mayForce s t ∧ t.Reports mayForce r)
      (fun _ t => Follows u mayForce s t) := by
  have hFollows :
      ∀ {t}, Logs u s t → Follows u mayForce s t := by
    rintro _ ⟨h, hAdds, rfl⟩
    exact (Step.write s h hAdds.grows).follows
  apply ends_bind
  apply ends_get
  apply ends_bind
  refine (logs_publish _ s).mono ?_ (fun _ _ => hFollows)
  intro _ t hLogs
  apply ends_pure
  refine ⟨hFollows hLogs, ?_⟩
  obtain ⟨h, hAdds, rfl⟩ := hLogs
  constructor
  · rfl
  · intro hStop
    obtain ⟨hForce, hSettled⟩ := hForced hStop
    exact ⟨hForce, hSettled.adds hApart hAdds⟩
  · intro hEnd
    exact (hRestored hEnd).adds hApart hAdds

/- What holds in the end of work that starts by advancing. -/
theorem ends_bind_of_advances
    {α β : Type}
    {work : Work (Session σ τ) α}
    {next : α → Work (Session σ τ) β}
    {P : α → Prop}
    {P' : β → Session σ τ → Prop}
    {s : Session σ τ}
    (hWork : Advances u mayForce work P)
    (hKept : s.IsKept u mayForce)
    (hSettled : s.IsSettled)
    (hNext : ∀ a t, P a → t.IsKept u mayForce → t.IsSettled →
      Ends (next a) t
        (fun b v => Follows u mayForce t v ∧ P' b v)
        (fun _ v => Follows u mayForce t v)) :
    Ends (work >>= next) s
      (fun b v => Follows u mayForce s v ∧ P' b v)
      (fun _ v => Follows u mayForce s v) := by
  apply ends_bind
  refine (hWork s hKept.apart hSettled).mono ?_ (fun _ _ h => h)
  rintro a t ⟨hFollows, hSettled', hP⟩
  refine (hNext a t hP (hKept.follows hFollows)
    hSettled').mono ?_ ?_
  · exact fun _ v hEnd => ⟨hFollows.trans hEnd.1, hEnd.2⟩
  · exact fun _ v hEnd => hFollows.trans hEnd

/-
  A reduction goes forward by steps, and its report is right
  about how the files are left.
-/
theorem ends_reduce
    {s : Session σ τ}
    (bound : Nat)
    (hStrategy : mayForce ∨ u.strategy.OnlyTries)
    (hKept : s.IsKept u mayForce)
    (hSettled : s.IsSettled) :
    Ends (reduce u bound) s
      (fun r t => Follows u mayForce s t ∧ t.Reports mayForce r)
      (fun _ t => Follows u mayForce s t) := by
  unfold reduce
  refine ends_bind_of_advances advances_get hKept hSettled ?_
  intro start t _ hKept hSettled
  refine ends_bind_of_advances
    (advances_passLoop hStrategy bound) hKept hSettled ?_
  rintro ⟨passCount, isForced⟩ t hEnding hKept hSettled
  cases isForced with
  | true =>
      exact ends_report mayForce _ _ _ hKept.apart
        (fun _ => ⟨hEnding rfl, hSettled⟩)
        (fun hEnd => by cases hEnd)
  | false =>
      apply ends_bind
      refine (ends_finish _ _ hKept).mono ?_ ?_
      · rintro _ v ⟨hLeads, hRestored⟩
        have hFollows := hLeads hKept.apart
        refine Ends.mono
          (ends_report mayForce _ _ _
            (hKept.follows hFollows).apart
            (fun hStop => by cases hStop)
            (fun _ => hRestored)) ?_ ?_
        · exact fun _ _ hEnd => ⟨hFollows.trans hEnd.1, hEnd.2⟩
        · exact fun _ _ hEnd => hFollows.trans hEnd
      · exact fun _ _ hLeads => hLeads hKept.apart

end Session

end Whittle
