import Whittle.Proofs.Session.Carrying
import Whittle.Proofs.Session.Commit

/-
  Trials go forward by steps.

  Key definitions include:
    * `Session.Advances`

  Main statements:
    * `Session.ends_tryCommit`
    * `Session.advances_tryRemove`
    * `Session.advances_tryVariants`
    * `Session.advances_forceRemove`
-/

------------------------------------------------------------
-- Hosts
------------------------------------------------------------

namespace Whittle

namespace Session

open Work

variable {σ τ α : Type} {u : Setup σ τ} {mayForce : Prop}

theorem IsApart.follows
    {s t : Session σ τ}
    (hApart : s.IsApart u)
    (hFollows : Follows u mayForce s t) :
    t.IsApart u := by
  unfold IsApart
  rw [hFollows.paths_eq]
  exact hApart

theorem IsSettled.adds
    {s : Session σ τ}
    {h : Host}
    (hSettled : s.IsSettled)
    (hApart : s.IsApart u)
    (hAdds : u.log.Adds s.workspace.host h) :
    (s.withHost h).IsSettled := by
  obtain ⟨m, rest, hTrail, hHolds⟩ := hSettled
  exact ⟨m, rest, hTrail, hHolds.adds hApart hAdds⟩

/- Work on the host that takes no file away is a step. -/
theorem ends_onHost_grows
    {work : Work Host α}
    (hWork : Moves Host.Grows work)
    (s : Session σ τ) :
    Ends (onHost work) s
      (fun _ t => Follows u mayForce s t)
      (fun _ t => Follows u mayForce s t) := by
  apply ends_onFiles
  apply ends_onHost
  refine (hWork s.workspace.host).mono ?_ ?_
  · exact fun _ h hGrows => (Step.write s h hGrows).follows
  · exact fun _ h hGrows => (Step.write s h hGrows).follows

/- Logging is a step after which the files are as before. -/
theorem ends_onHost_adds
    (mayForce : Prop)
    {work : Work Host α}
    (hWork : Moves u.log.Adds work)
    (s : Session σ τ) :
    Ends (onHost work) s
      (fun _ t => Follows u mayForce s t ∧
        ∃ h, u.log.Adds s.workspace.host h ∧ t = s.withHost h)
      (fun _ t => Follows u mayForce s t) := by
  apply ends_onFiles
  apply ends_onHost
  refine (hWork s.workspace.host).mono ?_ ?_
  · exact fun _ h hAdds =>
      ⟨(Step.write s h hAdds.grows).follows, h, hAdds, rfl⟩
  · exact fun _ h hAdds => (Step.write s h hAdds.grows).follows

end Session

end Whittle

------------------------------------------------------------
-- Committing
------------------------------------------------------------

namespace Whittle

namespace Session

open Work

variable {σ τ : Type} {u : Setup σ τ} {mayForce : Prop}

/- Files that are accepted keep their contents. -/
theorem holds_afterAccepting
    {s : Session σ τ}
    {w : Workspace}
    {cs : List Bytes}
    (hCommits : s.workspace.Commits u.rules w)
    (hHolds : s.Holds cs) :
    (s.afterAccepting w cs).Holds cs := by
  unfold Holds disk paths afterAccepting
  dsimp only
  rw [hCommits.paths_eq, hCommits.1]
  exact hHolds

/- Files that are refused keep their contents. -/
theorem holds_of_refuses
    {s : Session σ τ}
    {w : Workspace}
    {cs : List Bytes}
    (hRefuses : s.workspace.Refuses u.rules w)
    (hHolds : s.Holds cs) :
    Holds { s with workspace := w } cs := by
  unfold Holds disk paths
  dsimp only
  rw [hRefuses.paths_eq, hRefuses.1]
  exact hHolds

/- The question to the check is the last moment after it. -/
theorem Logs.trail_head
    {s t : Session σ τ}
    {cs : List Bytes}
    {b : Bool}
    (hAnswer : (s.answer u).1 = .ok b)
    (hLogs : Logs u (s.afterAsking u cs) t) :
    t.trail = .asked cs (some b) :: s.trail := by
  obtain ⟨h, _, rfl⟩ := hLogs
  unfold withHost afterAsking
  rw [hAnswer]
  rfl

theorem IsNew.follows
    {s t : Session σ τ}
    {cs : List Bytes}
    (hNew : s.IsNew cs)
    (hLogs : Logs u (s.afterAsking u cs) t) :
    Follows u mayForce s t :=
  (Step.ask s cs hNew.holds hNew.short
    hNew.unknown).follows.trans hLogs.follows

theorem Tries.follows
    {s t : Session σ τ}
    {result : Option Bool}
    (hTries : Tries u s result t) :
    Follows u mayForce s t := by
  cases hTries with
  | stop => exact Std.Refl.refl s
  | skip cs hHolds hShort hKnown =>
      exact (Step.skip s cs hHolds hShort hKnown).follows
  | fail cs _ hNew hLogs => exact hNew.follows hLogs
  | refuse cs _ hNew hAnswer hLogs => exact hNew.follows hLogs
  | unreadable cs t w _ hNew hAnswer hLogs hHolds hRefuses =>
      exact (hNew.follows hLogs).trans
        (Step.refuse t w hRefuses).follows
  | accept cs t _ w _ hNew hAnswer hLogs hHolds hCommits hLogs' =>
      have hHead : t.trail.head? = some (.asked cs (some true)) :=
        congrArg List.head? (hLogs.trail_head hAnswer)
      have hAccept : Step u mayForce t (t.afterAccepting w cs) :=
        .accept t w cs hCommits hHolds (.inl hHead)
      exact (hNew.follows hLogs).trans
        (hAccept.follows.trans hLogs'.follows)

/-
  After a trial the files hold what the last moment was about,
  even if it was refused.
-/
theorem Tries.isSettled
    {s t : Session σ τ}
    {b : Bool}
    (hTries : Tries u s (some b) t)
    (hApart : s.IsApart u) :
    t.IsSettled := by
  cases hTries with
  | skip cs hHolds => exact ⟨_, _, rfl, hHolds⟩
  | refuse cs _ hNew hAnswer hLogs =>
      exact ⟨_, _, hLogs.trail_head hAnswer,
        hLogs.holds hApart hNew.holds⟩
  | unreadable cs t w _ hNew hAnswer hLogs hHolds hRefuses =>
      have hHead : t.trail = .asked cs (some true) :: s.trail :=
        hLogs.trail_head hAnswer
      exact ⟨_, _, hHead, holds_of_refuses hRefuses hHolds⟩
  | accept cs t _ w _ hNew hAnswer hLogs hHolds hCommits hLogs' =>
      have hAsk : Follows u True s t := hNew.follows hLogs
      have hAsked : t.IsApart u := hApart.follows hAsk
      have hApart' : (t.afterAccepting w cs).IsApart u := by
        intro p hp
        apply hAsked p
        unfold paths
        rw [← hCommits.paths_eq]
        exact hp
      have hHolds' :=
        hLogs'.holds hApart' (holds_afterAccepting hCommits hHolds)
      obtain ⟨h, _, rfl⟩ := hLogs'
      exact ⟨_, _, rfl, hHolds'⟩

theorem Forces.follows
    {s t : Session σ τ}
    {hasEnded : Bool}
    (hForces : Forces u s hasEnded t)
    (hForce : mayForce) :
    Follows u mayForce s t := by
  cases hForces with
  | stop => exact Std.Refl.refl s
  | refuse cs w _ hHolds hRefuses =>
      have hNext : Step u mayForce (s.afterForcing cs) _ :=
        .refuse (s.afterForcing cs) w hRefuses
      exact (Step.force s cs hForce hHolds).follows.trans
        hNext.follows
  | accept cs w hHolds hCommits =>
      have hNext : Step u mayForce (s.afterForcing cs) _ :=
        .accept (s.afterForcing cs) w cs hCommits hHolds
          (.inr rfl)
      exact (Step.force s cs hForce hHolds).follows.trans
        hNext.follows

/- After forcing the files hold what has been forced. -/
theorem Forces.isSettled
    {s t : Session σ τ}
    (hForces : Forces u s true t) :
    t.IsSettled := by
  cases hForces with
  | refuse cs w _ hHolds hRefuses =>
      exact ⟨_, _, rfl, holds_of_refuses hRefuses hHolds⟩
  | accept cs w hHolds hCommits =>
      exact ⟨_, _, rfl,
        holds_afterAccepting (s := s.afterForcing cs) hCommits
          hHolds⟩

/-
  A trial goes forward by steps.  After it the files hold
  what the last moment was about, even if it was refused.
-/
theorem ends_tryCommit
    (mayForce : Prop)
    {s : Session σ τ}
    (hApart : s.IsApart u) :
    Ends (tryCommit u) s
      (fun _ t => Follows u mayForce s t ∧ t.IsSettled)
      (fun _ t => Follows u mayForce s t) := by
  refine (tries_tryCommit hApart).mono ?_ ?_
  · exact fun _ t hTries =>
      ⟨hTries.follows, hTries.isSettled hApart⟩
  · exact fun _ t hTries => hTries.follows

end Session

end Whittle

------------------------------------------------------------
-- Cleaning Up
------------------------------------------------------------

namespace Whittle

namespace Session

open Work

variable {σ τ α β : Type} {u : Setup σ τ} {mayForce : Prop}

/-
  Work that goes forward by steps.  If it succeeds its result
  is as `Q` says, and the files hold what the last moment was
  about.
-/
def Advances
    (u : Setup σ τ)
    (mayForce : Prop)
    (work : Work (Session σ τ) α)
    (Q : α → Prop) : Prop :=
  ∀ s : Session σ τ, s.IsApart u → s.IsSettled →
    Ends work s
      (fun a t => Follows u mayForce s t ∧ t.IsSettled ∧ Q a)
      (fun _ t => Follows u mayForce s t)

theorem advances_pure
    {Q : α → Prop}
    {a : α}
    (hQ : Q a) :
    Advances u mayForce (pure a) Q :=
  fun s _ hSettled => ends_pure ⟨Std.Refl.refl s, hSettled, hQ⟩

theorem advances_throw
    {Q : α → Prop}
    (e : Failure) :
    Advances u mayForce (throw e : Work (Session σ τ) α) Q :=
  fun s _ _ => ends_throw (Std.Refl.refl s)

theorem advances_bind
    {work : Work (Session σ τ) α}
    {next : α → Work (Session σ τ) β}
    {P : α → Prop}
    {Q : β → Prop}
    (hWork : Advances u mayForce work P)
    (hNext : ∀ a, P a → Advances u mayForce (next a) Q) :
    Advances u mayForce (work >>= next) Q := by
  intro s hApart hSettled
  apply ends_bind
  refine (hWork s hApart hSettled).mono ?_ (fun _ _ h => h)
  rintro a t ⟨hFollows, hSettled', hP⟩
  refine (hNext a hP t (hApart.follows hFollows)
    hSettled').mono ?_ ?_
  · rintro b v ⟨hFollows', hSettled'', hQ⟩
    exact ⟨hFollows.trans hFollows', hSettled'', hQ⟩
  · exact fun _ v hFollows' => hFollows.trans hFollows'

theorem advances_onHost
    {work : Work Host α}
    (hWork : Moves u.log.Adds work) :
    Advances u mayForce (onHost work) (fun _ => True) := by
  intro s hApart hSettled
  refine (ends_onHost_adds mayForce hWork s).mono ?_ (fun _ _ h => h)
  rintro a _ ⟨hLog, h, hAdds, rfl⟩
  exact ⟨hLog, hSettled.adds hApart hAdds, trivial⟩

theorem advances_write_bind
    {work : Work (Session σ τ) α}
    {next : α → Work (Session σ τ) β}
    {Q : β → Prop}
    (hWork : Moves (Follows u mayForce) work)
    (hNext : ∀ a t, t.IsApart u →
      Ends (next a) t
        (fun b v => Follows u mayForce t v ∧ v.IsSettled ∧ Q b)
        (fun _ v => Follows u mayForce t v)) :
    Advances u mayForce (work >>= next) Q := by
  intro s hApart hSettled
  apply ends_bind
  refine (hWork s).mono ?_ (fun _ _ h => h)
  intro a t hFollows
  refine (hNext a t (hApart.follows hFollows)).mono ?_ ?_
  · rintro b v ⟨hFollows', hSettled', hQ⟩
    exact ⟨hFollows.trans hFollows', hSettled', hQ⟩
  · exact fun _ v hFollows' => hFollows.trans hFollows'

theorem ends_tryCommit_bind
    (f : Bool → Bool)
    {t : Session σ τ}
    (hApart : t.IsApart u) :
    Ends
      (do
        let isCommitted ← tryCommit u
        pure (progressIf (f isCommitted)))
      t
      (fun outcome v => Follows u mayForce t v ∧ v.IsSettled ∧
        outcome ≠ .forcedStop)
      (fun _ v => Follows u mayForce t v) := by
  apply ends_bind
  refine (ends_tryCommit mayForce hApart).mono ?_ (fun _ _ h => h)
  rintro isCommitted v ⟨hFollows, hSettled⟩
  exact ends_pure ⟨hFollows, hSettled, progressIf_ne _⟩

/- Writing goes forward by steps. -/
theorem carriesWrites_follows :
    CarriesWrites (Follows u mayForce) (Follows u mayForce) where
  host hWork := ends_onHost_grows hWork
  remember s memory := (Step.remember s memory).follows

theorem advances_tryCleanup
    (isStrict : Bool) :
    Advances u mayForce (tryCleanup u isStrict)
      (· ≠ .forcedStop) :=
  advances_write_bind
    (carriesWrites_follows.goes_forEach
      (Scratch.moves_writeCleaned u.rules))
    (fun _ _ hApart =>
      ends_tryCommit_bind (· && isStrict) hApart)

end Session

end Whittle

------------------------------------------------------------
-- Removing Nodes
------------------------------------------------------------

namespace Whittle

namespace Session

open Work

variable {σ τ : Type} {u : Setup σ τ} {mayForce : Prop}

theorem advances_tryRemove
    (nodes : List NodeId) :
    Advances u mayForce (tryRemove u nodes)
      (· ≠ .forcedStop) := by
  unfold tryRemove
  split
  · exact advances_pure Outcome.noConfusion
  · exact advances_write_bind
      (carriesWrites_follows.goes_writeTrimmed nodes)
      (fun _ _ hApart => ends_tryCommit_bind id hApart)

theorem advances_tryVariants
    (variants : List (List NodeId)) :
    Advances u mayForce (tryVariants u variants)
      (· ≠ .forcedStop) := by
  induction variants with
  | nil => exact advances_pure Outcome.noConfusion
  | cons nodes rest ih =>
      unfold tryVariants
      refine advances_bind (advances_tryRemove nodes) ?_
      intro outcome hOutcome
      split
      · exact ih
      · exact advances_pure hOutcome

theorem advances_forceRemove
    (hForce : mayForce)
    (nodes : List NodeId) :
    Advances u mayForce (forceRemove u nodes)
      (fun _ => True) := by
  refine advances_write_bind
    (carriesWrites_follows.goes_writeTrimmed nodes) ?_
  intro _ t _
  refine (forces_forceCommit t).mono ?_ ?_
  · exact fun _ v hForces =>
      ⟨hForces.follows hForce, hForces.isSettled, trivial⟩
  · exact fun _ v hForces => hForces.follows hForce

end Session

end Whittle
