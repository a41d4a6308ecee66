import Whittle.Proofs.Session.Step
import Whittle.Session.Trial

/-
  What becomes of a trial.

  Key definitions include:
    * `Session.IsApart`
    * `Session.Logs`
    * `Session.Tries`
    * `Session.Forces`

  Main statements:
    * `Session.ends_tryCommit_of`
    * `Session.tries_tryCommit`
    * `Session.forces_forceCommit`

  A trial looks at the contents of the files, and ends in one
  of six ways.  Everything that is shown of trials later is
  shown by going through these ways.
-/

------------------------------------------------------------
-- Logging
------------------------------------------------------------

namespace Whittle

namespace Session

open Work

variable {σ τ : Type} {u : Setup σ τ} {mayForce : Prop}

/- No file of a session is one that its log is written to. -/
def IsApart
    (u : Setup σ τ)
    (s : Session σ τ) : Prop :=
  ∀ p ∈ s.paths, u.log.IsApart p

theorem Holds.adds
    {s : Session σ τ}
    {h : Host}
    {cs : List Bytes}
    (hHolds : s.Holds cs)
    (hApart : s.IsApart u)
    (hAdds : u.log.Adds s.workspace.host h) :
    (s.withHost h).Holds cs :=
  Disk.Holds.mono hHolds
    (fun p hp bs hRead => hAdds.keeps p bs (hApart p hp) hRead)

/- Nothing has happened but that the log was added to. -/
def Logs
    (u : Setup σ τ)
    (s t : Session σ τ) : Prop :=
  ∃ h, u.log.Adds s.workspace.host h ∧ t = s.withHost h

instance : Std.Refl (Logs u) :=
  ⟨fun s => ⟨s.workspace.host, Std.Refl.refl _, rfl⟩⟩

instance : IsTrans (Session σ τ) (Logs u) := by
  refine ⟨?_⟩
  rintro s _ _ ⟨h, hAdds, rfl⟩ ⟨h', hAdds', rfl⟩
  exact ⟨h', trans_of u.log.Adds hAdds hAdds', rfl⟩

theorem Logs.follows
    {s t : Session σ τ}
    (hLogs : Logs u s t) :
    Follows u mayForce s t := by
  obtain ⟨h, hAdds, rfl⟩ := hLogs
  exact (Step.write s h hAdds.grows).follows

theorem Logs.paths_eq
    {s t : Session σ τ}
    (hLogs : Logs u s t) :
    t.paths = s.paths := by
  obtain ⟨h, _, rfl⟩ := hLogs
  rfl

/- Files hold the same after logging. -/
theorem Logs.holds
    {s t : Session σ τ}
    {cs : List Bytes}
    (hLogs : Logs u s t)
    (hApart : s.IsApart u)
    (hHolds : s.Holds cs) :
    t.Holds cs := by
  obtain ⟨h, hAdds, rfl⟩ := hLogs
  exact hHolds.adds hApart hAdds

theorem logs_onHost
    {α : Type}
    {work : Work Host α}
    (hWork : Moves u.log.Adds work) :
    Moves (Logs u) (onHost work) := by
  intro s
  apply ends_onFiles
  apply ends_onHost
  refine (hWork s.workspace.host).mono ?_ ?_
  · exact fun _ h hAdds => ⟨h, hAdds, rfl⟩
  · exact fun _ h hAdds => ⟨h, hAdds, rfl⟩

theorem logs_logEvent
    (kind : String)
    (data : RunLog.Data) :
    Moves (Logs u) (logEvent u kind data) :=
  logs_onHost (RunLog.adds_event kind data)

/-
  The first event that is logged makes the file of the events.
  If that file cannot be written nothing happens.
-/
theorem ends_logEvent
    (kind : String)
    (data : RunLog.Data)
    (s : Session σ τ) :
    Ends (logEvent u kind data) s
      (fun _ t => Logs u s t ∧ u.log.IsStarted t.disk)
      (fun _ t => t = s ∧ ¬ u.log.CanAdd s.disk) := by
  unfold logEvent onHost
  apply ends_onFiles
  apply ends_onHost
  refine ((RunLog.adds_event kind data s.workspace.host).and
    (u.log.ends_event kind data s.workspace.host)).mono ?_ ?_
  · rintro _ h ⟨hAdds, hStarted⟩
    exact ⟨⟨h, hAdds, rfl⟩, hStarted⟩
  · rintro _ _ ⟨_, rfl, hFull⟩
    exact ⟨rfl, hFull⟩

end Session

end Whittle

------------------------------------------------------------
-- Trials
------------------------------------------------------------

namespace Whittle

namespace Session

open Work

variable {σ τ : Type} {u : Setup σ τ}

/- The files hold contents that are not known yet. -/
structure IsNew
    (s : Session σ τ)
    (cs : List Bytes) : Prop where
  holds : s.Holds cs
  short : Workspace.AreShort cs
  unknown : Workspace.fingerprint cs ∉ s.known

/-
  What becomes of a trial.  The result says whether the files
  have been accepted, unless the trial has failed.
    * `stop` : the contents cannot be told.
    * `skip` : they are known.
    * `fail` : the check, or logging its answer, has failed.
    * `refuse` : the check has said no.
    * `unreadable` : it has said yes, but not all files can
      be read.
    * `accept` : the files have been accepted.
-/
inductive Tries
    (u : Setup σ τ)
    (s : Session σ τ) :
    Option Bool → Session σ τ → Prop
| stop : Tries u s none s
| skip (cs : List Bytes)
    (hHolds : s.Holds cs)
    (hShort : Workspace.AreShort cs)
    (hKnown : Workspace.fingerprint cs ∈ s.known) :
    Tries u s (some false) (s.afterSkipping cs)
| fail (cs : List Bytes) (t : Session σ τ)
    (hNew : s.IsNew cs)
    (hLogs : Logs u (s.afterAsking u cs) t) :
    Tries u s none t
| refuse (cs : List Bytes) (t : Session σ τ)
    (hNew : s.IsNew cs)
    (hAnswer : (s.answer u).1 = .ok false)
    (hLogs : Logs u (s.afterAsking u cs) t) :
    Tries u s (some false) t
| unreadable (cs : List Bytes) (t : Session σ τ)
    (w : Workspace) (result : Option Bool)
    (hNew : s.IsNew cs)
    (hAnswer : (s.answer u).1 = .ok true)
    (hLogs : Logs u (s.afterAsking u cs) t)
    (hHolds : t.Holds cs)
    (hRefuses : t.workspace.Refuses u.rules w)
    (hResult : result ≠ some true) :
    Tries u s result { t with workspace := w }
| accept (cs : List Bytes) (t v : Session σ τ)
    (w : Workspace) (result : Option Bool)
    (hNew : s.IsNew cs)
    (hAnswer : (s.answer u).1 = .ok true)
    (hLogs : Logs u (s.afterAsking u cs) t)
    (hHolds : t.Holds cs)
    (hCommits : t.workspace.Commits u.rules w)
    (hLogs' : Logs u (t.afterAccepting w cs) v)
    (hResult : result ≠ some false) :
    Tries u s result v

/- Asking the check notes what it was asked and answers. -/
theorem ends_askCheck
    {s : Session σ τ}
    {cs : List Bytes}
    {Q : Bool → Session σ τ → Prop}
    {E : Failure → Session σ τ → Prop}
    (hOk : ∀ b, (s.answer u).1 = .ok b →
      Q b
        { s with
          check := (s.answer u).2
          trail := .asked cs (some b) :: s.trail })
    (hError : ∀ e, (s.answer u).1 = .error e →
      E e
        { s with
          check := (s.answer u).2
          trail := .asked cs none :: s.trail }) :
    Ends (askCheck u cs) s Q E := by
  unfold Ends askCheck
  unfold answer at hOk hError
  rcases hAsk : u.check.ask s.check (view u s) with
    ⟨e | b, memory⟩
  · rw [hAsk] at hError
    exact hError e rfl
  · rw [hAsk] at hOk
    exact hOk b rfl

/-
  Asking about new contents leads to the state after asking,
  together with what the check has answered.
-/
theorem ends_askNew
    {s : Session σ τ}
    {cs : List Bytes}
    {known : List Bytes}
    (hKnown : known = Workspace.fingerprint cs :: s.known) :
    Ends (askCheck u cs)
      { s with known := known, trials := s.trials + 1 }
      (fun b t => (s.answer u).1 = .ok b ∧
        t = s.afterAsking u cs)
      (fun e t => (s.answer u).1 = .error e ∧
        t = s.afterAsking u cs) := by
  subst hKnown
  apply ends_askCheck
  · intro b hAnswer
    have hAnswer' : (s.answer u).1 = .ok b := hAnswer
    refine ⟨hAnswer', ?_⟩
    unfold afterAsking
    rw [hAnswer']
    rfl
  · intro e hAnswer
    have hAnswer' : (s.answer u).1 = .error e := hAnswer
    refine ⟨hAnswer', ?_⟩
    unfold afterAsking
    rw [hAnswer']
    rfl

/- The end of a trial to which the check has said yes. -/
def acceptTried
    (u : Setup σ τ) : Work (Session σ τ) Bool := do
  if ← acceptAll u then
    let s ← get
    logEvent u "commit"
      [("size", count s.totalSize),
        ("nodes", count s.totalNodeCount)]
    pure true
  else
    pure false

/-
  The files are accepted, which is logged, or they cannot be
  read.  This only fails if a file cannot even be decoded, or
  the log cannot be added to.
-/
theorem ends_acceptTried
    {s : Session σ τ}
    {cs : List Bytes}
    {Q : Bool → Session σ τ → Prop}
    {E : Failure → Session σ τ → Prop}
    (hHolds : s.Holds cs)
    (hRefuse : ∀ w, s.workspace.Refuses u.rules w →
      Q false { s with workspace := w } ∧
        ∀ e, s.workspace.readAll u.rules = .error e →
          e ≠ .unparsable → E e { s with workspace := w })
    (hAccept : ∀ w t, s.workspace.Commits u.rules w →
      Logs u (s.afterAccepting w cs) t →
      Q true t ∧ (¬ u.log.CanAdd s.disk → ∀ e, E e t)) :
    Ends (acceptTried u) s Q E := by
  unfold acceptTried
  apply ends_bind
  refine ((ends_acceptAll s).and (ends_acceptAll_readAll s)).mono
    ?_ ?_
  · rintro isAccepted t ⟨hAccepted, _⟩
    cases isAccepted with
    | false =>
        obtain ⟨w, hRefuses, rfl⟩ := hAccepted
        exact ends_pure (hRefuse w hRefuses).1
    | true =>
        obtain ⟨w, cs', hCommits, hHolds', rfl⟩ := hAccepted
        obtain rfl : cs = cs' := hHolds.unique hHolds'
        have hDisk : (s.afterAccepting w cs).disk = s.disk :=
          hCommits.1
        apply ends_bind
        apply ends_get
        apply ends_bind
        refine (ends_logEvent _ _ _).mono ?_ ?_
        · exact fun _ t hLogged =>
            ends_pure (hAccept w t hCommits hLogged.1).1
        · rintro e _ ⟨rfl, hFull⟩
          rw [hDisk] at hFull
          exact (hAccept w _ hCommits (Std.Refl.refl _)).2 hFull e
  · rintro e _ ⟨⟨w, hRefuses, rfl⟩, hRead, hOther⟩
    exact (hRefuse w hRefuses).2 e hRead hOther

/-
  A trial ends as shown if each of its ways does.
    * `hStop` : the contents cannot be told.
    * `hSkip` : they are known.
    * `hFail` : the check has failed.
    * `hUnlogged` : the log cannot be added to.
    * `hRefuse` : the check has said no.
    * `hAccept` : it has said yes, and its answer is logged.
-/
theorem ends_tryCommit_of
    {s : Session σ τ}
    {Q : Bool → Session σ τ → Prop}
    {E : Failure → Session σ τ → Prop}
    (hApart : s.IsApart u)
    (hStop : ∀ e,
      (∀ cs, s.Holds cs → ¬ Workspace.AreShort cs) → E e s)
    (hSkip : ∀ cs, s.Holds cs → Workspace.AreShort cs →
      Workspace.fingerprint cs ∈ s.known →
      Q false (s.afterSkipping cs))
    (hFail : ∀ cs e, s.IsNew cs → (s.answer u).1 = .error e →
      E e (s.afterAsking u cs))
    (hUnlogged : ∀ cs e, s.IsNew cs →
      ¬ u.log.CanAdd s.disk → E e (s.afterAsking u cs))
    (hRefuse : ∀ cs t, s.IsNew cs → (s.answer u).1 = .ok false →
      Logs u (s.afterAsking u cs) t → Q false t)
    (hAccept : ∀ cs t, s.IsNew cs → (s.answer u).1 = .ok true →
      Logs u (s.afterAsking u cs) t → t.Holds cs →
      u.log.IsStarted t.disk → Ends (acceptTried u) t Q E) :
    Ends (tryCommit u) s Q E := by
  unfold tryCommit
  apply ends_bind
  apply ends_onFiles
  refine ((Workspace.ends_contents s.workspace).and
    (Workspace.ends_contents_missing s.workspace)).mono ?_ ?_
  · rintro cs w ⟨⟨rfl, hHolds⟩, _⟩
    cases hKey : Workspace.key cs with
    | error e =>
        refine ends_throw (hStop e fun cs' hHolds' hShort => ?_)
        obtain rfl : cs' = cs := Disk.Holds.unique hHolds' hHolds
        have hFound := Workspace.key_eq_ok_iff.mpr ⟨hShort, rfl⟩
        rw [hKey] at hFound
        cases hFound
    | ok key =>
        obtain ⟨hShort, rfl⟩ := Workspace.key_eq_ok_iff.mp hKey
        apply ends_bind
        apply ends_get
        split
        · rename_i hKnown
          apply ends_bind
          apply ends_modify
          apply ends_bind
          apply ends_modify
          exact ends_pure
            (hSkip cs hHolds hShort (by simpa using hKnown))
        · rename_i hUnknown
          have hNew : s.IsNew cs :=
            ⟨hHolds, hShort, by simpa using hUnknown⟩
          have hAsked : (s.afterAsking u cs).Holds cs := hHolds
          apply ends_bind
          apply ends_modify
          apply ends_bind
          refine (ends_askNew (s := s) rfl).mono ?_ ?_
          · rintro isSatisfied _ ⟨hAnswer, rfl⟩
            apply ends_bind
            apply ends_onFiles
            apply ends_of_eq_ok (Workspace.size_eq hAsked)
            apply ends_bind
            refine (ends_logEvent _ _ _).mono ?_ ?_
            · rintro _ t ⟨hLogs, hStarted⟩
              cases isSatisfied with
              | false =>
                  exact ends_pure (hRefuse cs t hNew hAnswer hLogs)
              | true =>
                  exact hAccept cs t hNew hAnswer hLogs
                    (hLogs.holds hApart hAsked) hStarted
            · rintro e _ ⟨rfl, hFull⟩
              exact hUnlogged cs e hNew hFull
          · rintro e _ ⟨hAnswer, rfl⟩
            exact hFail cs e hNew hAnswer
  · rintro e w ⟨rfl, hMissing⟩
    exact hStop e fun cs hHolds => absurd hHolds (hMissing cs)

/- A trial ends in one of the ways in which trials end. -/
theorem tries_tryCommit
    {s : Session σ τ}
    (hApart : s.IsApart u) :
    Ends (tryCommit u) s
      (fun b t => Tries u s (some b) t)
      (fun _ t => Tries u s none t) := by
  apply ends_tryCommit_of hApart
  case hStop => exact fun _ _ => .stop
  case hSkip => exact .skip
  case hFail =>
    exact fun cs _ hNew _ => .fail cs _ hNew (Std.Refl.refl _)
  case hUnlogged =>
    exact fun cs _ hNew _ => .fail cs _ hNew (Std.Refl.refl _)
  case hRefuse => exact .refuse
  case hAccept =>
    intro cs t hNew hAnswer hLogs hHolds _
    apply ends_acceptTried hHolds
    · intro w hRefuses
      have hUnread : ∀ result, result ≠ some true →
          Tries u s result { t with workspace := w } :=
        fun result =>
          .unreadable cs t w result hNew hAnswer hLogs hHolds
            hRefuses
      exact ⟨hUnread _ (by simp),
        fun _ _ _ => hUnread _ (by simp)⟩
    · intro w v hCommits hLogs'
      have hAccepted : ∀ result, result ≠ some false →
          Tries u s result v :=
        fun result =>
          .accept cs t v w result hNew hAnswer hLogs hHolds
            hCommits hLogs'
      exact ⟨hAccepted _ (by simp),
        fun _ _ => hAccepted _ (by simp)⟩

end Session

end Whittle

------------------------------------------------------------
-- Cuts Without A Question
------------------------------------------------------------

namespace Whittle

namespace Session

open Work

variable {σ τ : Type} {u : Setup σ τ}

/-
  What becomes of files that are forced.  `hasEnded` says that
  forcing them has not failed.
    * `stop` : their contents cannot be told.
    * `refuse` : not all files can be read.
    * `accept` : they have been accepted.
-/
inductive Forces
    (u : Setup σ τ)
    (s : Session σ τ) :
    (hasEnded : Bool) → Session σ τ → Prop
| stop : Forces u s false s
| refuse (cs : List Bytes) (w : Workspace) (hasEnded : Bool)
    (hHolds : s.Holds cs)
    (hRefuses : s.workspace.Refuses u.rules w) :
    Forces u s hasEnded
      { s.afterForcing cs with workspace := w }
| accept (cs : List Bytes) (w : Workspace)
    (hHolds : s.Holds cs)
    (hCommits : s.workspace.Commits u.rules w) :
    Forces u s true ((s.afterForcing cs).afterAccepting w cs)

/- Files that have been cut without a question are forced. -/
theorem forces_forceCommit
    (s : Session σ τ) :
    Ends
      (do
        note (.forced (← onFiles Workspace.contents))
        let _ ← acceptAll u
        pure Outcome.forcedStop)
      s
      (fun _ t => Forces u s true t)
      (fun _ t => Forces u s false t) := by
  apply ends_bind
  apply ends_onFiles
  refine (Workspace.ends_contents s.workspace).mono ?_ ?_
  · rintro cs w ⟨rfl, hHolds⟩
    apply ends_bind
    apply ends_modify
    apply ends_bind
    refine (ends_acceptAll (s.afterForcing cs)).mono ?_ ?_
    · intro isAccepted t hAccept
      cases isAccepted with
      | false =>
          obtain ⟨w, hRefuses, rfl⟩ := hAccept
          exact ends_pure (.refuse cs w true hHolds hRefuses)
      | true =>
          obtain ⟨w, cs', hCommits, hHolds', rfl⟩ := hAccept
          obtain rfl : cs = cs' :=
            Disk.Holds.unique hHolds hHolds'
          exact ends_pure (.accept cs w hHolds hCommits)
    · rintro _ t ⟨w, hRefuses, rfl⟩
      exact .refuse cs w false hHolds hRefuses
  · rintro _ w rfl
    exact .stop

end Session

end Whittle
