import Whittle.Proofs.Session.Trimming
import Whittle.Proofs.Strategy.Tries
import Whittle.Session.Run

/-
  What holds along a run because it holds along its parts.

  Key definitions include:
    * `Session.CarriesWrites`
    * `Session.CarriesTrials`
    * `Session.CarriesReduction`
    * `Session.Carries`

  Main statements:
    * `Session.CarriesTrials.goes_singlePass`
    * `Session.CarriesTrials.goes_passLoop`
    * `Session.CarriesReduction.goes_reduce`
    * `Session.Carries.moves_runOpened`

  A run is made of a few operations: it writes and prints,
  the check and the strategy remember something, and files
  are changed and tried.  A relation between states that
  holds along each of these holds along the whole run.
-/

------------------------------------------------------------
-- Outcomes
------------------------------------------------------------

namespace Whittle

namespace Session

open Work

variable {σ τ : Type} {u : Setup σ τ} {s : Session σ τ}

/- A trial does not force the reduction to stop. -/
theorem progressIf_ne
    (isProgress : Bool) :
    progressIf isProgress ≠ .forcedStop := by
  cases isProgress <;> exact Outcome.noConfusion

theorem outcome_tryCleanup
    (isStrict : Bool) :
    Ends (tryCleanup u isStrict) s
      (fun outcome _ => outcome ≠ .forcedStop)
      (fun _ _ => True) := by
  apply ends_bind
  refine ends_trivial.mono ?_ (fun _ _ h => h)
  intro _ t _
  apply ends_bind
  refine ends_trivial.mono ?_ (fun _ _ h => h)
  exact fun _ _ _ => ends_pure (progressIf_ne _)

theorem outcome_tryRemove
    (nodes : List NodeId) :
    Ends (tryRemove u nodes) s
      (fun outcome _ => outcome ≠ .forcedStop)
      (fun _ _ => True) := by
  unfold tryRemove
  split
  · exact ends_pure Outcome.noConfusion
  · apply ends_bind
    refine ends_trivial.mono ?_ (fun _ _ h => h)
    intro _ t _
    apply ends_bind
    refine ends_trivial.mono ?_ (fun _ _ h => h)
    exact fun _ _ _ => ends_pure (progressIf_ne _)

theorem outcome_tryVariants
    (variants : List (List NodeId)) :
    Ends (tryVariants u variants) s
      (fun outcome _ => outcome ≠ .forcedStop)
      (fun _ _ => True) := by
  induction variants generalizing s with
  | nil => exact ends_pure Outcome.noConfusion
  | cons nodes rest ih =>
      unfold tryVariants
      apply ends_bind
      refine (outcome_tryRemove nodes).mono ?_ (fun _ _ h => h)
      intro outcome t hOutcome
      split
      · exact ih
      · exact ends_pure hOutcome

end Session

end Whittle

------------------------------------------------------------
-- Cutting
------------------------------------------------------------

namespace Whittle

namespace Session

open Work

variable {R : Host → Host → Prop} [Host.CarriesFiles R]

theorem moves_abortTrimming
    (s : Scratch)
    (nodes : NodeTable)
    (cause : RegionError) :
    Moves R (abortTrimming s nodes cause) := by
  unfold abortTrimming
  apply moves_bind (Host.moves_warn _)
  intro _
  split
  · exact moves_throw _
  · exact moves_bind (moves_forM Host.moves_warn _)
      (fun _ => moves_throw _)

theorem moves_cutEach
    (r : SourceRules)
    (ss : List Scratch)
    (nodes : NodeTable) :
    Moves R (cutEach r ss nodes) := by
  induction ss generalizing nodes with
  | nil => exact moves_pure _
  | cons s rest ih =>
      unfold cutEach cutOne
      refine moves_bind ?_ (fun _ => ih _)
      apply moves_tryCatch (s.moves_writeTrimmed r _)
      intro e
      split
      · exact moves_abortTrimming s _ _
      · exact moves_throw _

theorem moves_trimEach
    (r : SourceRules)
    (ss : List Scratch)
    (nodes : NodeTable) :
    Moves R (trimEach r ss nodes) := by
  rw [trimEach_eq]
  exact moves_bind (moves_cutEach r ss nodes)
    (fun _ => moves_pure _)

end Session

end Whittle

------------------------------------------------------------
-- Operations
------------------------------------------------------------

namespace Whittle

namespace Session

open Work

variable {σ τ : Type} {u : Setup σ τ} {mayForce : Prop}
variable {R E : Session σ τ → Session σ τ → Prop}

/-
  Two relations that hold along everything that leaves the
  files and the check alone: `R` if it succeeds, and `E` if it
  fails.
-/
structure CarriesWrites
    (R E : Session σ τ → Session σ τ → Prop) : Prop where
  host : ∀ {α : Type} {work : Work Host α},
    Moves Host.Grows work → Goes R E (onHost work)
  remember : ∀ s memory, R s { s with strategy := memory }

/- The relations also hold whatever the check remembers. -/
structure CarriesNotes
    (R E : Session σ τ → Session σ τ → Prop) : Prop extends
    CarriesWrites R E where
  remind : ∀ s memory, R s { s with check := memory }

/-
  The relations hold along every operation of a pass, in which
  the check is only asked.
-/
structure CarriesTrials
    (u : Setup σ τ)
    (mayForce : Prop)
    (R E : Session σ τ → Session σ τ → Prop) : Prop extends
    CarriesWrites R E where
  cleanup : ∀ isStrict, Goes R E (tryCleanup u isStrict)
  remove : ∀ nodes, Goes R E (tryRemove u nodes)
  force : mayForce → ∀ nodes, Goes R E (forceRemove u nodes)

/-
  The relations hold along every operation of a reduction
  whose check has been started.
-/
structure CarriesReduction
    (u : Setup σ τ)
    (mayForce : Prop)
    (R E : Session σ τ → Session σ τ → Prop) : Prop extends
    CarriesTrials u mayForce R E where
  restore : Goes R E (onFiles Workspace.rollBackAll)
  strip : ∀ i, Goes R E (tryStrip u i)

/- The relations hold along every operation of a pass. -/
structure CarriesPasses
    (u : Setup σ τ)
    (mayForce : Prop)
    (R E : Session σ τ → Session σ τ → Prop) : Prop extends
    CarriesNotes R E, CarriesTrials u mayForce R E

/- The relations hold along every operation of a run. -/
structure Carries
    (u : Setup σ τ)
    (mayForce : Prop)
    (R E : Session σ τ → Session σ τ → Prop) : Prop extends
    CarriesPasses u mayForce R E, CarriesReduction u mayForce R E

variable [Std.Refl R] [Std.Refl E] [Trans R R R] [Trans R E E]

omit [Std.Refl R] [Std.Refl E] [Trans R R R] [Trans R E E] in
theorem CarriesWrites.goes_logEvent
    (hCarries : CarriesWrites R E)
    (kind : String)
    (data : RunLog.Data) :
    Goes R E (logEvent u kind data) :=
  hCarries.host (u.log.moves_event kind data)

omit [Std.Refl R] [Std.Refl E] [Trans R R R] [Trans R E E] in
theorem CarriesWrites.goes_forEach
    {work : Scratch → Work Host Unit}
    (hCarries : CarriesWrites R E)
    (hWork : ∀ f, Moves Host.Grows (work f)) :
    Goes R E (onFiles (Workspace.forEach work)) :=
  fun s => hCarries.host (moves_forM hWork s.workspace.scratches) s

omit [Std.Refl E] in
theorem CarriesWrites.goes_writeTrimmed
    (hCarries : CarriesWrites R E)
    (nodes : List NodeId) :
    Goes R E (writeTrimmed u nodes) := by
  unfold writeTrimmed
  refine goes_bind goes_get ?_
  intro s
  refine goes_bind (hCarries.host (moves_trimEach _ _ _)) ?_
  intro unknown
  split
  · exact goes_bind (hCarries.host (Host.moves_warn _))
      (fun _ => hCarries.goes_logEvent _ _)
  · exact goes_pure _

omit [Std.Refl E] in
/-
  What holds along writing and along trials holds along a
  reduction without force.
-/
theorem CarriesWrites.carriesReduction
    (hCarries : CarriesWrites R E)
    (hCommit : Goes R E (tryCommit u))
    (hForce : mayForce → ∀ nodes,
      Goes R E (forceRemove u nodes)) :
    CarriesReduction u mayForce R E where
  toCarriesWrites := hCarries
  cleanup isStrict := by
    refine goes_bind (hCarries.goes_forEach
      (Scratch.moves_writeCleaned u.rules)) ?_
    exact fun _ => goes_bind hCommit (fun _ => goes_pure _)
  remove nodes := by
    unfold tryRemove
    split
    · exact goes_pure _
    · refine goes_bind (hCarries.goes_writeTrimmed nodes) ?_
      exact fun _ => goes_bind hCommit (fun _ => goes_pure _)
  force := hForce
  restore := hCarries.goes_forEach Scratch.moves_rollBack
  strip i := by
    refine goes_bind
      (hCarries.goes_forEach Scratch.moves_rollBack) ?_
    intro _
    refine goes_bind goes_get ?_
    intro s
    dsimp only
    split
    · exact hCommit
    · refine goes_bind (hCarries.host ?_) (fun _ => hCommit)
      exact Scratch.moves_writeWithoutBlankLines u.rules _

omit [Std.Refl E] in
theorem CarriesTrials.goes_tryVariants
    (hCarries : CarriesTrials u mayForce R E)
    (variants : List (List NodeId)) :
    Goes R E (tryVariants u variants) := by
  induction variants with
  | nil => exact goes_pure _
  | cons nodes rest ih =>
      unfold tryVariants
      refine goes_bind (hCarries.remove nodes) ?_
      intro outcome
      split
      · exact ih
      · exact goes_pure _

theorem CarriesTrials.goes_carryOut
    {plan : Plan τ}
    (hCarries : CarriesTrials u mayForce R E)
    (hPlan : mayForce ∨ plan.NeverForces) :
    Goes R E (carryOut u plan) := by
  have hNext :
      ∀ {next : Outcome → Plan τ} {work : Work (Session σ τ) Outcome},
        Goes R E work →
        (∀ s, Ends work s (fun o _ => o ≠ .forcedStop)
          (fun _ _ => True)) →
        (mayForce ∨ ∀ o, o ≠ .forcedStop → (next o).NeverForces) →
        (∀ o, (mayForce ∨ (next o).NeverForces) →
          Goes R E (carryOut u (next o))) →
        Goes R E (do
          let outcome ← work
          carryOut u (next outcome)) := by
    intro next work hWork hOutcome hTries ih
    refine goes_bind_of hOutcome hWork ?_
    intro outcome hTried
    exact ih outcome (hTries.imp id (fun h => h outcome hTried))
  induction plan with
  | done outcome => exact goes_pure outcome
  | remember memory rest ih =>
      refine goes_bind ?_ ?_
      · exact fun s => ends_modify (hCarries.remember s memory)
      · intro _
        apply ih
        rcases hPlan with hForce | hTries
        · exact .inl hForce
        · cases hTries with
          | remember _ _ hRest => exact .inr hRest
  | cleanup next ih =>
      refine hNext (hCarries.cleanup true)
        (fun _ => outcome_tryCleanup true) ?_ ih
      rcases hPlan with hForce | hTries
      · exact .inl hForce
      · cases hTries with
        | cleanup _ hNext => exact .inr hNext
  | remove nodes next ih =>
      refine hNext (hCarries.remove nodes)
        (fun _ => outcome_tryRemove nodes) ?_ ih
      rcases hPlan with hForce | hTries
      · exact .inl hForce
      · cases hTries with
        | remove _ _ hNext => exact .inr hNext
  | offer variants next ih =>
      refine hNext (hCarries.goes_tryVariants variants)
        (fun _ => outcome_tryVariants variants) ?_ ih
      rcases hPlan with hForce | hTries
      · exact .inl hForce
      · cases hTries with
        | offer _ _ hNext => exact .inr hNext
  | force nodes next ih =>
      rcases hPlan with hForce | hTries
      · exact goes_bind (hCarries.force hForce nodes)
          (fun outcome => ih outcome (.inl hForce))
      · cases hTries
  | giveUp message => exact goes_throw _

theorem CarriesTrials.goes_singlePass
    (hCarries : CarriesTrials u mayForce R E)
    (hStrategy : mayForce ∨ u.strategy.NeverForces) :
    Goes R E (singlePass u) := by
  refine goes_bind goes_get ?_
  intro s
  exact hCarries.goes_carryOut
    (hStrategy.imp id (fun hTries => hTries _ _ _))

end Session

end Whittle

------------------------------------------------------------
-- Runs
------------------------------------------------------------

namespace Whittle

namespace Session

open Work

variable {σ τ : Type} {u : Setup σ τ} {mayForce : Prop}
variable {R E : Session σ τ → Session σ τ → Prop}
variable [Std.Refl R] [Std.Refl E] [Trans R R R] [Trans R E E]

omit [Std.Refl E] in
theorem CarriesWrites.goes_printProgress
    (hCarries : CarriesWrites R E)
    (moment : String)
    (size nodes : Int) :
    Goes R E (printProgress moment size nodes) :=
  goes_bind goes_get (fun _ => hCarries.host (Host.moves_print _))

theorem CarriesTrials.goes_turn
    (hCarries : CarriesTrials u mayForce R E)
    (hStrategy : mayForce ∨ u.strategy.NeverForces)
    (size nodes number : Nat) :
    Goes R E (turn u size nodes number) := by
  refine goes_bind ?_ ?_
  · unfold passOrCleanup
    split
    · exact hCarries.cleanup true
    · exact hCarries.goes_singlePass hStrategy
  · intro outcome
    refine goes_bind goes_get ?_
    intro s
    refine goes_bind (hCarries.goes_logEvent _ _) ?_
    intro _
    exact goes_bind (hCarries.goes_printProgress _ _ _)
      (fun _ => goes_pure outcome)

theorem CarriesTrials.goes_passes
    (hCarries : CarriesTrials u mayForce R E)
    (hStrategy : mayForce ∨ u.strategy.NeverForces)
    (size nodes fuel before : Nat) :
    Goes R E (passes u size nodes fuel before) := by
  induction fuel generalizing before with
  | zero => exact goes_throw _
  | succ fuel ih =>
      refine goes_bind
        (hCarries.goes_turn hStrategy size nodes _) ?_
      intro outcome
      split
      · exact goes_pure _
      · split
        · exact ih _
        · exact goes_pure _

theorem CarriesTrials.goes_rounds
    (hCarries : CarriesTrials u mayForce R E)
    (hStrategy : mayForce ∨ u.strategy.NeverForces)
    (size nodes bound : Nat) :
    Goes R E (do
      let _ ← tryCleanup u false
      printProgress "After initial white-space cleanup" size nodes
      passes u size nodes bound 0) := by
  refine goes_bind (hCarries.cleanup false) ?_
  intro _
  refine goes_bind (hCarries.goes_printProgress _ _ _) ?_
  intro _
  exact hCarries.goes_passes hStrategy _ _ bound 0

theorem CarriesTrials.goes_passLoop
    (hCarries : CarriesTrials u mayForce R E)
    (hStrategy : mayForce ∨ u.strategy.NeverForces)
    (bound : Nat) :
    Goes R E (passLoop u bound) := by
  refine goes_bind goes_get ?_
  intro s
  refine goes_bind (hCarries.host (Host.moves_print _)) ?_
  intro _
  refine goes_bind (hCarries.goes_logEvent _ _) ?_
  intro _
  exact hCarries.goes_rounds hStrategy _ _ bound

omit [Std.Refl E] in
theorem CarriesReduction.goes_stripEach
    (hCarries : CarriesReduction u mayForce R E)
    (is : List Nat) :
    Goes R E (stripEach u is) := by
  induction is with
  | nil => exact goes_pure _
  | cons i rest ih =>
      exact goes_bind (hCarries.strip i) (fun _ => ih)

omit [Std.Refl E] in
theorem CarriesReduction.goes_finish
    (hCarries : CarriesReduction u mayForce R E)
    (size nodes : Nat) :
    Goes R E (finish u size nodes) := by
  refine goes_bind (hCarries.cleanup false) ?_
  intro _
  refine goes_bind (hCarries.goes_printProgress _ _ _) ?_
  intro _
  refine goes_bind goes_get ?_
  intro s
  refine goes_bind (hCarries.goes_stripEach _) ?_
  intro _
  refine goes_bind (hCarries.goes_printProgress _ _ _) ?_
  exact fun _ => hCarries.restore

omit [Std.Refl E] in
theorem CarriesWrites.goes_publish
    (hCarries : CarriesWrites R E)
    (r : Report) :
    Goes R E (publish u r) := by
  have hPrints :
      ∀ lines : List String,
        Goes R E (onHost (lines.forM Host.print)) :=
    fun lines =>
      hCarries.host (moves_forM Host.moves_print lines)
  refine goes_bind goes_get ?_
  intro s
  refine goes_bind (hPrints _) ?_
  intro _
  refine goes_bind (hPrints _) ?_
  intro _
  refine goes_bind (hCarries.goes_logEvent _ _) ?_
  intro _
  exact goes_bind (hCarries.host (u.log.moves_store _))
    (fun _ => goes_pure _)

omit [Std.Refl E] in
theorem CarriesReduction.goes_conclude
    (hCarries : CarriesReduction u mayForce R E)
    (size nodes passCount : Nat)
    (isForced : Bool) :
    Goes R E (do
      if !isForced then
        finish u size nodes
      let s ← get
      let r := report u size nodes passCount isForced s
      publish u r
      pure r) := by
  have hReport :
      Goes R E (do
        let s ← get
        let r := report u size nodes passCount isForced s
        publish u r
        pure r) := by
    refine goes_bind goes_get ?_
    intro s
    exact goes_bind (hCarries.goes_publish _)
      (fun _ => goes_pure _)
  cases isForced with
  | true => exact hReport
  | false =>
      exact goes_bind (hCarries.goes_finish _ _)
        (fun _ => hReport)

theorem CarriesReduction.goes_reduce
    (hCarries : CarriesReduction u mayForce R E)
    (hStrategy : mayForce ∨ u.strategy.NeverForces)
    (bound : Nat) :
    Goes R E (reduce u bound) := by
  refine goes_bind goes_get ?_
  intro s
  refine goes_bind (hCarries.goes_passLoop hStrategy bound) ?_
  rintro ⟨passCount, isForced⟩
  exact hCarries.goes_conclude _ _ passCount isForced

theorem CarriesNotes.goes_startCheck
    (hCarries : CarriesNotes R E) :
    Goes R E (startCheck u) := by
  intro s
  unfold startCheck
  apply ends_bind
  apply ends_get
  rcases u.check.start s.check (view u s) with
    ⟨result, memory, notices⟩
  have hRemind : R s { s with check := memory } :=
    hCarries.remind s memory
  have hNotices :
      ∀ {next : Work (Session σ τ) Unit}, Goes R E next →
        Goes R E (do
          onHost (notices.printed.forM Host.print)
          onHost (notices.warned.forM Host.warn)
          next) := by
    intro next hNext
    refine goes_bind
      (hCarries.host (moves_forM Host.moves_print _)) ?_
    intro _
    refine goes_bind
      (hCarries.host (moves_forM Host.moves_warn _)) ?_
    exact fun _ => hNext
  have hStarted :
      ∀ {next : Work (Session σ τ) Unit}, Goes R E next →
        Ends
          (do
            onHost (notices.printed.forM Host.print)
            onHost (notices.warned.forM Host.warn)
            next)
          { s with check := memory }
          (fun _ t => R s t) (fun _ t => E s t) := by
    intro next hNext
    refine (hNotices hNext _).mono ?_ ?_
    · exact fun _ t h => Trans.trans hRemind h
    · exact fun _ t h => Trans.trans hRemind h
  apply ends_bind
  apply ends_set
  cases result with
  | ok _ => exact hStarted (goes_pure _)
  | error e => exact hStarted (goes_throw e)

omit [Std.Refl E] [Trans R R R] [Trans R E E] in
/-
  A reduction of opened files.  If it fails, the files are
  restored in the end.
-/
theorem Carries.moves_runOpened
    [Trans R R R]
    (hCarries : Carries u mayForce R R)
    (hStrategy : mayForce ∨ u.strategy.NeverForces)
    (bound : Nat) :
    Moves R (runOpened u bound) := by
  intro s
  apply ends_tryCatch
  have hWork :
      Goes R R (do
        startCheck u
        reduce u bound) :=
    goes_bind hCarries.goes_startCheck
      (fun _ => hCarries.goes_reduce hStrategy bound)
  refine (hWork s).mono (fun _ _ h => h) ?_
  intro e t hst
  apply ends_bind
  refine (hCarries.restore t).mono ?_ ?_
  · exact fun _ v htv => ends_throw (Trans.trans hst htv)
  · exact fun _ v htv => Trans.trans hst htv

end Session

end Whittle
