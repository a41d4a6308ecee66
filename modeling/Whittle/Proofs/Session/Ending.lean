import Whittle.Proofs.Session.Opening
import Whittle.Proofs.Session.Run

/-
  How a reduction leaves its files.

  Key definitions include:
    * `Session.IsOpened`
    * `Session.EndsAfter`

  Main statements:
    * `Session.opened_of_openFiles`
    * `Session.ends_runOpened`
    * `Session.exists_endsAfter`

  Every way out of a reduction restores what was accepted
  last, except a forced stop, which leaves what was tried.
-/

------------------------------------------------------------
-- Opening
------------------------------------------------------------

namespace Whittle

namespace Session

open Work

variable {σ τ : Type} {u : Setup σ τ} {mayForce : Prop}

/-
  Files that have been opened hold what has been accepted,
  and nothing else has happened.
-/
structure IsOpened
    (u : Setup σ τ)
    (fs : List FilePair)
    (s : Session σ τ) : Prop where
  paths : s.paths = targets fs
  kept : ∀ mayForce, s.IsKept u mayForce
  accepted : ∃ cs, s.trail = [.accepted cs] ∧ s.Holds cs

/- Files that could be opened are opened. -/
theorem opened_of_openFiles
    {fs : List FilePair}
    {h : Host}
    {s : Session σ τ}
    (hDistinct : FilePath.AreDistinct (targets fs))
    (hApart : ∀ p ∈ targets fs, u.log.IsApart p)
    (hOpen : openFiles u fs (initial u h) = (.ok (), s)) :
    s.IsOpened u fs := by
  obtain ⟨t, w, cs, hStart, rfl⟩ := starts_of_openFiles hOpen
  have hPaths := hStart.commits.paths_eq.trans hStart.paths
  refine ⟨hPaths, ?_, cs, ?_, ?_⟩
  · intro mayForce
    have hSound :
        Moment.AreSound u mayForce t.paths t.trail := by
      rw [hStart.trail]
      trivial
    have hKept :=
      isKept_of_commits (hStart.paths ▸ hDistinct)
        (hStart.paths ▸ hApart) hStart.commits hStart.holds
        (.inl hStart.trail) hSound
    exact ⟨hKept.distinct, hKept.apart, hKept.files,
      hKept.snapshots, hKept.accepted, hKept.sound⟩
  · exact congrArg (.accepted cs :: ·) hStart.trail
  · exact holds_afterAccepting hStart.commits hStart.holds

/- Opened files hold what the only moment is about. -/
theorem IsOpened.isSettled
    {fs : List FilePair}
    {s : Session σ τ}
    (hOpened : s.IsOpened u fs) :
    s.IsSettled := by
  obtain ⟨cs, hTrail, hHolds⟩ := hOpened.accepted
  exact ⟨.accepted cs, [], hTrail, hHolds⟩

end Session

end Whittle

------------------------------------------------------------
-- Running
------------------------------------------------------------

namespace Whittle

namespace Session

open Work

variable {σ τ : Type} {u : Setup σ τ} {mayForce : Prop}

theorem advances_notices
    {next : Work (Session σ τ) Unit}
    (notices : Notices)
    (hNext : Advances u mayForce next (fun _ => True)) :
    Advances u mayForce
      (do
        onHost (notices.printed.forM Host.print)
        onHost (notices.warned.forM Host.warn)
        next)
      (fun _ => True) := by
  refine advances_bind
    (advances_onHost (moves_forM Host.moves_print _)) ?_
  intro _ _
  refine advances_bind
    (advances_onHost (moves_forM Host.moves_warn _)) ?_
  intro _ _
  exact hNext

theorem advances_startCheck :
    Advances u mayForce (startCheck u) (fun _ => True) := by
  intro s hApart hSettled
  unfold startCheck
  apply ends_bind
  apply ends_get
  rcases u.check.start s.check (view u s) with
    ⟨result, memory, notices⟩
  have hRemind : Follows u mayForce s { s with check := memory } :=
    (Step.remind s memory).follows
  have hResult :
      ∀ {next : Work (Session σ τ) Unit},
        Advances u mayForce next (fun _ => True) →
        Ends
          (do
            onHost (notices.printed.forM Host.print)
            onHost (notices.warned.forM Host.warn)
            next)
          { s with check := memory }
          (fun _ t => Follows u mayForce s t ∧ t.IsSettled ∧ True)
          (fun _ t => Follows u mayForce s t) := by
    intro next hNext
    refine (advances_notices notices hNext
      { s with check := memory } hApart hSettled).mono ?_ ?_
    · exact fun _ _ hEnd => ⟨hRemind.trans hEnd.1, hEnd.2⟩
    · exact fun _ _ hEnd => hRemind.trans hEnd
  apply ends_bind
  apply ends_set
  cases result with
  | ok _ => exact hResult (advances_pure trivial)
  | error e => exact hResult (advances_throw e)

/-
  A reduction of opened files goes forward by steps.  If it
  fails the files are restored.
-/
theorem ends_runOpened
    {s : Session σ τ}
    (bound : Nat)
    (hStrategy : mayForce ∨ u.strategy.OnlyTries)
    (hKept : s.IsKept u mayForce)
    (hSettled : s.IsSettled) :
    Ends (runOpened u bound) s
      (fun r t => Follows u mayForce s t ∧ t.Reports mayForce r)
      (fun _ t => Follows u mayForce s t ∧ t.IsRestored) := by
  apply ends_tryCatch
  have hReduce :
      Ends
        (do
          startCheck u
          reduce u bound)
        s
        (fun r t => Follows u mayForce s t ∧
          t.Reports mayForce r)
        (fun _ t => Follows u mayForce s t) := by
    refine ends_bind_of_advances advances_startCheck hKept
      hSettled ?_
    intro _ t _ hKept hSettled
    exact ends_reduce bound hStrategy hKept hSettled
  refine hReduce.mono (fun _ _ h => h) ?_
  intro e t hFollows
  apply ends_bind
  refine (ends_rollBackAll (hKept.follows hFollows)).mono ?_ ?_
  · rintro _ v ⟨hBack, hRestored, _⟩
    exact ends_throw ⟨hFollows.trans hBack, hRestored⟩
  · exact fun _ _ hFalse => hFalse.elim

/- Steps only add moments. -/
theorem Follows.trail_suffix
    {s t : Session σ τ}
    (hFollows : Follows u mayForce s t) :
    ∃ newer, t.trail = newer ++ s.trail := by
  induction hFollows with
  | refl => exact ⟨[], rfl⟩
  | tail _ hStep ih =>
      obtain ⟨newer, hTrail⟩ := ih
      cases hStep with
      | write | remind | remember | refuse =>
          exact ⟨newer, hTrail⟩
      | skip | ask | force | accept =>
          exact ⟨_ :: newer, congrArg (_ :: ·) hTrail⟩

/-
  How a reduction that is over has left its files.
    * `paths`, `disk`, `trail` : it stopped in a state that
      steps lead to.
    * `reported`, `failed` : its report is right about that
      state, and without a report the files are restored.
-/
structure EndsAfter
    (u : Setup σ τ)
    (mayForce : Prop)
    (start : Session σ τ)
    (result : Except Failure Report)
    (s t : Session σ τ) : Prop where
  follows : Follows u mayForce start t
  disk : s.disk = t.disk
  trail : s.trail = t.trail
  reported : ∀ r, result = .ok r → t.Reports mayForce r
  failed : ∀ e, result = .error e → t.IsRestored

/- Every reduction of opened files ends in such a way. -/
theorem exists_endsAfter
    {start s : Session σ τ}
    {bound : Nat}
    {result : Except Failure Report}
    (hStrategy : mayForce ∨ u.strategy.OnlyTries)
    (hKept : start.IsKept u mayForce)
    (hSettled : start.IsSettled)
    (hRun : runWithin u bound start = (result, s)) :
    ∃ t, EndsAfter u mayForce start result s t := by
  have hEnds := ends_runOpened bound hStrategy hKept hSettled
  unfold runWithin at hRun
  rcases hOpened : runOpened u bound start with ⟨r | r, t⟩
  · obtain ⟨hFollows, hRestored⟩ := hEnds.of_error hOpened
    rw [hOpened] at hRun
    cases hRun
    refine ⟨t, hFollows, rfl, rfl, ?_, ?_⟩
    · intro _ hEnd
      cases hEnd
    · exact fun _ _ => hRestored
  · obtain ⟨hFollows, hReports⟩ := hEnds.of_ok hOpened
    rw [hOpened] at hRun
    cases hRun
    refine ⟨t, hFollows, rfl, rfl, ?_, ?_⟩
    · intro _ hEnd
      cases hEnd
      exact hReports
    · intro _ hEnd
      cases hEnd

end Session

end Whittle
