import Whittle.Proofs.Session.Counting
import Whittle.Proofs.Session.Repetition

/-
  The counts of a run agree with what has happened in it.

  Key definitions include:
    * `Session.Task`
    * `Session.Performs`
    * `Session.IsCounted`

  Main statements:
    * `Session.Task.isCounted`
    * `Session.performs_runWithin`
    * `Session.counts_agree`

  Trials are counted right as long as the log can be added to.
  It can be from the moment at which the start of a reduction
  has been logged, and a run tries nothing before that.
-/

------------------------------------------------------------
-- Tasks
------------------------------------------------------------

namespace Whittle

namespace Session

open Work

variable {σ τ : Type} {u : Setup σ τ}

/-
  What a run does.  It tries nothing as long as the log cannot
  be added to.
    * `write` : something is written or printed.
    * `start` : the check is started.
    * `remember` : the strategy remembers something.
    * `trial` : what the files hold is tried.
    * `close` : the check and the files are closed.
-/
inductive Task
    (u : Setup σ τ)
    (s : Session σ τ) :
    Session σ τ → Prop
| write (h : Host)
    (hGrows : s.workspace.host.Grows h) :
    Task u s (s.withHost h)
| start : Task u s (startCheck u s).2
| remember (memory : τ) :
    Task u s { s with strategy := memory }
| trial (hStarted : u.log.IsStarted s.disk) :
    Task u s (tryCommit u s).2
| close :
    Task u s
      { s with
        check := u.check.close s.check
        workspace := s.workspace.closeAll }

/- Any number of tasks. -/
def Performs
    (u : Setup σ τ) :
    Session σ τ → Session σ τ → Prop :=
  Relation.ReflTransGen (Task u)

instance : Std.Refl (Performs u) :=
  ⟨fun _ => .refl⟩

instance : IsTrans (Session σ τ) (Performs u) :=
  ⟨fun _ _ _ h₁ h₂ => Relation.ReflTransGen.trans h₁ h₂⟩

/- A task on its own. -/
theorem Task.performs
    {s t : Session σ τ}
    (hTask : Task u s t) :
    Performs u s t :=
  .single hTask

/- Writing is a task. -/
theorem carriesWrites_performs :
    CarriesWrites (Performs u) (Performs u) where
  host hWork := by
    intro s
    apply ends_onFiles
    apply ends_onHost
    refine (hWork s.workspace.host).mono ?_ ?_
    · exact fun _ h hGrows => (Task.write h hGrows).performs
    · exact fun _ h hGrows => (Task.write h hGrows).performs
  remember _ memory := (Task.remember memory).performs

/- So is logging. -/
theorem Logs.performs
    {s t : Session σ τ}
    (hLogs : Logs u s t) :
    Performs u s t := by
  obtain ⟨h, hAdds, rfl⟩ := hLogs
  exact (Task.write h hAdds.grows).performs

end Session

end Whittle

------------------------------------------------------------
-- Runs
------------------------------------------------------------

namespace Whittle

namespace Session

open Work

variable {σ τ : Type} {u : Setup σ τ} {s t : Session σ τ}

/-
  Tasks, if the log can be added to and is apart from the
  files.  This stays so.
-/
def Occurs
    (u : Setup σ τ)
    (s t : Session σ τ) : Prop :=
  s.IsApart u → u.log.IsStarted s.disk →
    Performs u s t ∧ Follows u False s t

instance : Std.Refl (Occurs u) :=
  ⟨fun s _ _ => ⟨Std.Refl.refl s, Std.Refl.refl s⟩⟩

instance : IsTrans (Session σ τ) (Occurs u) := by
  refine ⟨fun s t v hst htv hApart hStarted => ?_⟩
  obtain ⟨hPerforms, hFollows⟩ := hst hApart hStarted
  obtain ⟨hPerforms', hFollows'⟩ :=
    htv (hApart.follows hFollows) (hStarted.grows hFollows.grows)
  exact ⟨trans_of (Performs u) hPerforms hPerforms',
    trans_of (Follows u False) hFollows hFollows'⟩

theorem occurs_of_performs
    {α : Type}
    {work : Work (Session σ τ) α}
    (hPerforms : Moves (Performs u) work)
    (hLeads : Moves (Leads u False) work) :
    Moves (Occurs u) work := by
  apply moves_of_state
  intro s hApart _
  exact ⟨(hPerforms s).anyway, (hLeads s).anyway hApart⟩

theorem carries_occurs :
    CarriesReduction u False (Occurs u) (Occurs u) := by
  have hWrites : CarriesWrites (Occurs u) (Occurs u) :=
    { host := fun hWork => occurs_of_performs
        (carriesWrites_performs.host hWork)
        (carriesWrites_leads.host hWork)
      remember := fun s memory _ _ =>
        ⟨carriesWrites_performs.remember s memory,
          (Step.remember s memory).follows⟩ }
  refine hWrites.carriesReduction ?_ False.elim
  apply moves_of_state
  intro s hApart hStarted
  exact ⟨(Task.trial hStarted).performs,
    (leads_tryCommit s).anyway hApart⟩

/-
  What comes before the first trial of a reduction.  When it
  has been logged the log can be added to.
-/
theorem performs_introduce
    {α : Type}
    {next : Work (Session σ τ) α}
    {Q : α → Session σ τ → Prop}
    {line kind : String}
    {data : RunLog.Data}
    (hApart : s.IsApart u)
    (hNext : ∀ t, Performs u s t → t.IsApart u →
      u.log.IsStarted t.disk →
      Ends next t Q (fun _ v => Performs u s v)) :
    Ends
      (do
        onHost (Host.print line)
        logEvent u kind data
        next)
      s Q (fun _ v => Performs u s v) := by
  apply ends_bind
  refine (logs_onHost (u := u) (Host.moves_print line) s).mono ?_
    (fun _ _ hLogs => hLogs.performs)
  intro _ v hPrints
  apply ends_bind
  refine (ends_logEvent kind data v).mono ?_ ?_
  · rintro _ t ⟨hLogs, hStarted⟩
    have hBoth : Logs u s t := trans_of (Logs u) hPrints hLogs
    refine hNext t hBoth.performs ?_ hStarted
    unfold IsApart
    rw [hBoth.paths_eq]
    exact hApart
  · rintro _ _ ⟨rfl, _⟩
    exact hPrints.performs

theorem performs_passLoop
    (hApart : s.IsApart u)
    (hStrategy : u.strategy.NeverForces)
    (bound : Nat) :
    Ends (passLoop u bound) s
      (fun _ t => Performs u s t ∧ t.IsApart u ∧
        u.log.IsStarted t.disk)
      (fun _ t => Performs u s t) := by
  unfold passLoop
  apply ends_bind
  apply ends_get
  apply performs_introduce hApart
  intro t hPerforms hApart' hStarted
  refine (carries_occurs.goes_rounds (.inr hStrategy) _ _ bound
    t).mono ?_ ?_
  · intro _ v hOccurs
    obtain ⟨hMore, hFollows⟩ := hOccurs hApart' hStarted
    exact ⟨trans_of (Performs u) hPerforms hMore,
      hApart'.follows hFollows, hStarted.grows hFollows.grows⟩
  · intro _ v hOccurs
    exact trans_of (Performs u) hPerforms
      (hOccurs hApart' hStarted).1

theorem performs_reduce
    (hApart : s.IsApart u)
    (hStrategy : u.strategy.NeverForces)
    (bound : Nat) :
    Ends (reduce u bound) s
      (fun _ t => Performs u s t)
      (fun _ t => Performs u s t) := by
  unfold reduce
  apply ends_bind
  apply ends_get
  apply ends_bind
  refine (performs_passLoop hApart hStrategy bound).mono ?_
    (fun _ _ h => h)
  rintro ⟨passCount, isForced⟩ t ⟨hPerforms, hApart', hStarted⟩
  refine (carries_occurs.goes_conclude _ _ passCount isForced
    t).mono ?_ ?_
  · exact fun _ v hOccurs => trans_of (Performs u) hPerforms
      (hOccurs hApart' hStarted).1
  · exact fun _ v hOccurs => trans_of (Performs u) hPerforms
      (hOccurs hApart' hStarted).1

theorem performs_startCheck
    (hApart : s.IsApart u) :
    Ends (startCheck u) s
      (fun _ t => Performs u s t ∧ t.IsApart u)
      (fun _ t => Performs u s t) := by
  have hTask : Moves (Performs u) (startCheck u) :=
    moves_of_state fun _ => Task.start.performs
  have hLeads : Moves (Leads u False) (startCheck u) :=
    carries_leads.goes_startCheck
  refine ((hTask s).and (hLeads s)).mono ?_ (fun _ _ h => h.1)
  exact fun _ t hBoth =>
    ⟨hBoth.1, hApart.follows (hBoth.2 hApart)⟩

theorem performs_runOpened
    (hApart : s.IsApart u)
    (hStrategy : u.strategy.NeverForces)
    (bound : Nat) :
    Ends (runOpened u bound) s
      (fun _ t => Performs u s t)
      (fun _ t => Performs u s t) := by
  have hWork :
      Ends
        (do
          startCheck u
          reduce u bound)
        s (fun _ t => Performs u s t)
        (fun _ t => Performs u s t) := by
    apply ends_bind
    refine (performs_startCheck hApart).mono ?_ (fun _ _ h => h)
    rintro _ t ⟨hPerforms, hApart'⟩
    refine (performs_reduce hApart' hStrategy bound).mono ?_ ?_
    · exact fun _ _ hMore => trans_of (Performs u) hPerforms hMore
    · exact fun _ _ hMore => trans_of (Performs u) hPerforms hMore
  have hRestore :
      Moves (Performs u) (onFiles Workspace.rollBackAll) :=
    carriesWrites_performs.goes_forEach Scratch.moves_rollBack
  unfold runOpened
  apply ends_tryCatch
  refine hWork.mono (fun _ _ h => h) ?_
  intro e t hPerforms
  apply ends_bind
  refine (hRestore t).mono ?_ ?_
  · exact fun _ v hMore =>
      ends_throw (trans_of (Performs u) hPerforms hMore)
  · exact fun _ v hMore => trans_of (Performs u) hPerforms hMore

theorem performs_runWithin
    (hApart : s.IsApart u)
    (hStrategy : u.strategy.NeverForces)
    (bound : Nat) :
    Performs u s (runWithin u bound s).2 :=
  Relation.ReflTransGen.tail
    (performs_runOpened hApart hStrategy bound).anyway .close

end Session

end Whittle

------------------------------------------------------------
-- Opened Files
------------------------------------------------------------

namespace Whittle

namespace Session

open Work

variable {σ τ : Type} {u : Setup σ τ}

/- Nothing has been tried in between. -/
structure IsUntried
    (s t : Session σ τ) : Prop where
  trials : t.trials = s.trials
  skipped : t.skipped = s.skipped
  check : t.check = s.check

instance : Std.Refl (IsUntried (σ := σ) (τ := τ)) :=
  ⟨fun _ => ⟨rfl, rfl, rfl⟩⟩

instance : IsTrans (Session σ τ) IsUntried :=
  ⟨fun _ _ _ hst htv =>
    ⟨htv.trials.trans hst.trials, htv.skipped.trans hst.skipped,
      htv.check.trans hst.check⟩⟩

theorem untried_onFiles
    {α : Type}
    (work : Work Workspace α) :
    Moves (IsUntried (σ := σ) (τ := τ)) (onFiles work) :=
  moves_of_state fun _ => ⟨rfl, rfl, rfl⟩

theorem untried_openPair
    (f : FilePair) :
    Moves (IsUntried (σ := σ) (τ := τ)) (openPair f) := by
  unfold openPair
  dsimp only
  split
  · refine moves_bind (moves_tryCatch (untried_onFiles _) ?_)
      (fun _ => untried_onFiles _)
    intro e
    split
    · exact moves_bind (moves_of_state fun _ => ⟨rfl, rfl, rfl⟩)
        (fun _ => moves_throw _)
    · exact moves_throw _
  · exact untried_onFiles _

theorem untried_acceptAll :
    Moves (IsUntried (σ := σ) (τ := τ)) (acceptAll u) := by
  unfold acceptAll
  refine moves_bind (untried_onFiles _) ?_
  intro roots?
  split
  · exact moves_pure _
  · refine moves_bind (moves_of_state fun _ => ⟨rfl, rfl, rfl⟩) ?_
    intro _
    refine moves_bind moves_get ?_
    intro s
    exact moves_bind (moves_of_state fun _ => ⟨rfl, rfl, rfl⟩)
      (fun _ => moves_pure _)

theorem untried_openFiles
    (fs : List FilePair) :
    Moves (IsUntried (σ := σ) (τ := τ)) (openFiles u fs) := by
  unfold openFiles
  refine moves_bind (moves_forM untried_openPair fs) ?_
  intro _
  refine moves_bind untried_acceptAll ?_
  intro isAccepted
  split
  · refine moves_bind (untried_onFiles _) ?_
    intro cs
    split
    · exact moves_throw _
    · exact moves_of_state fun _ => ⟨rfl, rfl, rfl⟩
  · exact moves_bind (moves_of_state fun _ => ⟨rfl, rfl, rfl⟩)
      (fun _ => moves_throw _)

end Session

end Whittle

------------------------------------------------------------
-- Counted Sessions
------------------------------------------------------------

namespace Whittle

namespace Session

open Moment Work

variable {κ τ : Type} {runner : Runner κ} {c : CheckedCommand}
variable {u : Setup (CommandCheck.Memory κ) τ}
variable {s t : Session (CommandCheck.Memory κ) τ}

/-
  What holds of every state of a run: its files are apart from
  the log, and the counts agree with the trail.
-/
structure IsCounted
    (c : CheckedCommand)
    (u : Setup (CommandCheck.Memory κ) τ)
    (s : Session (CommandCheck.Memory κ) τ) : Prop where
  apart : s.IsApart u
  agrees : s.tally.Agrees c u.rules

theorem IsCounted.congr
    (hCounted : s.IsCounted c u)
    (hTally : t.tally = s.tally) :
    t.IsCounted c u := by
  constructor
  · have hPaths : t.paths = s.paths := congrArg Tally.paths hTally
    unfold IsApart
    rw [hPaths]
    exact hCounted.apart
  · rw [hTally]
    exact hCounted.agrees

/- A trial that is offered leaves a session counted. -/
theorem IsCounted.offers
    (hCounted : s.IsCounted c u)
    (hOffers : s.tally.Offers c u.rules t.tally) :
    t.IsCounted c u := by
  constructor
  · have hPaths : t.paths = s.paths := hOffers.paths_eq
    unfold IsApart
    rw [hPaths]
    exact hCounted.apart
  · exact hOffers.agrees hCounted.agrees

/- Starting the check counts nothing. -/
theorem tally_startCheck
    (hCheck : u.check = CommandCheck.check runner c)
    (s : Session (CommandCheck.Memory κ) τ) :
    (startCheck u s).2.tally = s.tally := by
  have hCounts :
      s.check.CountsAs
        (u.check.start s.check (view u s)).2.1 0 0 := by
    rw [hCheck]
    exact CommandCheck.countsAs_start runner c s.check (view u s)
  have hHost :
      ∀ {t : Session (CommandCheck.Memory κ) τ} {α : Type}
        {work : Work Host α}, t.tally = s.tally →
        Ends (onHost work) t (fun _ v => v.tally = s.tally)
          (fun _ v => v.tally = s.tally) := by
    intro t α work hTally
    refine (ends_onHost_only work t).mono ?_ ?_
    · rintro _ _ ⟨h, rfl⟩
      exact hTally
    · rintro _ _ ⟨h, rfl⟩
      exact hTally
  refine Ends.anyway (P := fun t => tally t = s.tally) ?_
  unfold startCheck
  apply ends_bind
  apply ends_get
  rcases hStart : u.check.start s.check (view u s) with
    ⟨result, memory, notices⟩
  rw [hStart] at hCounts
  have hTally :
      tally { s with check := memory } = s.tally := by
    unfold tally
    rw [hCounts.spawned, hCounts.fruitful]
    rfl
  apply ends_bind
  apply ends_set
  apply ends_bind
  refine (hHost hTally).mono ?_ (fun _ _ h => h)
  intro _ t hPrinted
  apply ends_bind
  refine (hHost hPrinted).mono ?_ (fun _ _ h => h)
  intro _ v hWarned
  cases result with
  | ok _ => exact ends_pure hWarned
  | error e => exact ends_throw hWarned

/- Closing the check and the files counts nothing. -/
theorem tally_close
    (hCheck : u.check = CommandCheck.check runner c)
    (s : Session (CommandCheck.Memory κ) τ) :
    tally
        { s with
          check := u.check.close s.check
          workspace := s.workspace.closeAll } =
      s.tally := by
  have hPaths :
      s.workspace.closeAll.paths = s.workspace.paths := by
    unfold Workspace.paths Workspace.closeAll
    rw [List.map_map]
    rfl
  unfold tally paths
  rw [hCheck]
  dsimp only
  rw [hPaths]
  rfl

/- A task leaves a session counted. -/
theorem Task.isCounted
    (hCheck : u.check = CommandCheck.check runner c)
    (hTask : Task u s t)
    (hCounted : s.IsCounted c u) :
    t.IsCounted c u := by
  cases hTask with
  | write h => exact hCounted.congr rfl
  | start => exact hCounted.congr (tally_startCheck hCheck s)
  | remember memory => exact hCounted.congr rfl
  | trial hStarted =>
      refine Ends.anyway (P := IsCounted c u)
        ((tallies_tryCommit hCheck hCounted.apart hStarted).mono
          ?_ ?_)
      · exact fun _ t hOffers => hCounted.offers hOffers
      · rintro _ t (hSame | hOffers)
        · exact hCounted.congr hSame
        · exact hCounted.offers hOffers
  | close => exact hCounted.congr (tally_close hCheck s)

/- Any number of tasks do so. -/
theorem Performs.isCounted
    (hCheck : u.check = CommandCheck.check runner c)
    (hPerforms : Performs u s t)
    (hCounted : s.IsCounted c u) :
    t.IsCounted c u := by
  induction hPerforms with
  | refl => exact hCounted
  | tail _ hTask ih => exact hTask.isCounted hCheck ih

theorem isCounted_of_openFiles
    {fs : List FilePair}
    {h : Host}
    (hCheck : u.check = CommandCheck.check runner c)
    (hApart : ∀ p ∈ targets fs, u.log.IsApart p)
    (hOpen : openFiles u fs (initial u h) = (.ok (), s)) :
    s.IsCounted c u := by
  have hUntried : IsUntried (initial u h) s :=
    (untried_openFiles fs (initial u h)).of_ok hOpen
  obtain ⟨t, w, cs, hStarts, rfl⟩ := starts_of_openFiles hOpen
  have hPaths : (t.afterOpening w cs).paths = targets fs :=
    hStarts.commits.paths_eq.trans hStarts.paths
  have hSpawned : (t.afterOpening w cs).check.spawned = 0 := by
    rw [hUntried.check]
    unfold initial
    rw [hCheck]
    rfl
  have hFruitful : (t.afterOpening w cs).check.fruitful = 0 := by
    rw [hUntried.check]
    unfold initial
    rw [hCheck]
    rfl
  have hTally :
      (t.afterOpening w cs).tally =
        ⟨[Workspace.fingerprint cs], 0, 0, 0, 0, [.accepted cs],
          targets fs⟩ := by
    unfold tally
    rw [hUntried.trials, hUntried.skipped, hSpawned, hFruitful,
      hPaths]
    unfold afterOpening afterAccepting
    dsimp only
    rw [hStarts.known, hStarts.trail]
    rfl
  constructor
  · unfold IsApart
    rw [hPaths]
    exact hApart
  · rw [hTally]
    constructor <;>
      simp [isAsked, isOffered, isAccepted, isJudged,
        Moment.isParseable]

end Session

end Whittle

------------------------------------------------------------
-- Whole Runs
------------------------------------------------------------

namespace Whittle

namespace Session

open Moment Work

variable {κ τ : Type} {runner : Runner κ} {c : CheckedCommand}
variable {u : Setup (CommandCheck.Memory κ) τ}

/- One trial more has been offered. -/
def OffersOne
    (s t : Session (CommandCheck.Memory κ) τ) : Prop :=
  t.trials + t.skipped = s.trials + s.skipped + 1

/-
  In every state of a run in which nothing is forced, and
  whose check runs a command, the counts agree with what has
  happened.  A trial that is offered is counted once, and no
  command runs for it unless all files can be parsed.  The
  state in which a run ends is one of these, whether it has
  failed or not.
-/
theorem counts_agree
    {fs : List FilePair}
    {h : Host}
    {start : Session (CommandCheck.Memory κ) τ}
    (hCheck : u.check = CommandCheck.check runner c)
    (hApart : ∀ p ∈ targets fs, u.log.IsApart p)
    (hOpen : openFiles u fs (initial u h) = (.ok (), start)) :
    (∀ s, Performs u start s →
      s.tally.Agrees c u.rules ∧
      s.check.fruitful ≤ s.check.spawned ∧
      s.check.spawned ≤ s.trials ∧
      (u.log.IsStarted s.disk →
        Ends (tryCommit u) s (fun _ t => OffersOne s t)
          (fun _ t => t.tally = s.tally ∨ OffersOne s t)) ∧
      ((view u s).areParseable () ≠ .ok true →
        (s.answer u).2 = s.check)) ∧
    (u.strategy.NeverForces → ∀ bound,
      Performs u start (runWithin u bound start).2) := by
  have hStart := isCounted_of_openFiles hCheck hApart hOpen
  constructor
  · intro s hPerforms
    obtain ⟨hApart', hAgrees⟩ := hPerforms.isCounted hCheck hStart
    refine ⟨hAgrees, hAgrees.fruitful, hAgrees.spawned_le, ?_,
      (asks_answer hCheck s).eq_of_not_parseable⟩
    intro hStarted
    refine (tallies_tryCommit hCheck hApart' hStarted).mono ?_ ?_
    · exact fun _ _ hOffers => hOffers.offered_eq
    · rintro _ _ (hSame | hOffers)
      · exact .inl hSame
      · exact .inr hOffers.offered_eq
  · exact fun hStrategy bound =>
      performs_runWithin hStart.apart hStrategy bound

/- A runner whose commands all end well. -/
def quietRunner : Runner Unit where
  initial := ()
  run := fun _ _ _ => (.ok ⟨0, [], []⟩, ())
  compile := .ok ""
  serve := fun _ _ _ => .error .wrongKind
  environment := []

/- A command that is expected to end with at least some code. -/
def endingFrom
    (least : Value) : CheckedCommand :=
  ⟨.text "check", false, .number 1, .exitCode least .null⟩

/-
  A language in which a text is a node that stands at the
  start of the second line, unless it has a brace.
-/
def withoutBraces : FrontEnd :=
  { secondLine with
    parse := fun name t =>
      if '{' ∈ t then none else secondLine.parse name t }

/- A setup with this language whose check runs a command. -/
def commandSetup
    (least : Value) : Setup (CommandCheck.Memory Unit) Unit where
  rules := ⟨withoutBraces, .known .utf8, false⟩
  check := CommandCheck.check quietRunner (endingFrom least)
  strategy := reporting .noProgress
  log := (smallSetup true .noProgress).log

/- A file and a directory for the log. -/
def commandHost : Host :=
  .ofDisk
    ⟨[(.ofText "a", .file [65, 10, 66]),
      (.ofText "log", .directory)]⟩

/- What is opened for such a setup. -/
def openedCommand
    (least : Value)
    (output : String) :
    Except Failure Unit × Session (CommandCheck.Memory Unit) Unit :=
  openFiles (commandSetup least) [⟨"a", output⟩]
    (initial (commandSetup least) commandHost)

/- A run in which two commands run, and both do what is expected. -/
theorem counts_agree_small :
    ∃ start s : Session (CommandCheck.Memory Unit) Unit,
      openedCommand (.number 0) "b" = (.ok (), start) ∧
        s = (runWithin (commandSetup (.number 0)) 1 start).2 ∧
        s.tally.Agrees (endingFrom (.number 0))
          (commandSetup (.number 0)).rules := by
  have hOpened :
      (openedCommand (.number 0) "b").1.toOption.isSome := by
    decide +kernel
  obtain ⟨_, hOpen⟩ := eq_of_isSome hOpened
  have hStrategy :
      (commandSetup (.number 0)).strategy.NeverForces :=
    fun _ _ _ => .done .noProgress
  obtain ⟨hStates, hRun⟩ :=
    counts_agree rfl (by decide +kernel) hOpen
  exact ⟨_, _, hOpen, rfl, (hStates _ (hRun hStrategy 1)).1⟩

/-
  If the output is the file of the events of the run, what the
  check has said yes to may be refused, as its answer has been
  logged by then.  And a command whose exit code cannot be
  judged is counted, although its check fails.
-/
theorem exists_miscounted :
    ((commandSetup (.number 0)).strategy.NeverForces ∧
      ∃ start s,
        openedCommand (.number 0) "log/events.ndjson" =
          (.ok (), start) ∧
        s = (runWithin (commandSetup (.number 0)) 1 start).2 ∧
        s.trail.countP isAccepted ≠ s.check.fruitful + 1) ∧
      ∃ start e s,
        openedCommand (.text "one") "b" = (.ok (), start) ∧
        runWithin (commandSetup (.text "one")) 1 start =
          (.error e, s) ∧
        s.trials = 1 ∧ s.check.spawned = 1 := by
  have hLog :
      (openedCommand (.number 0)
        "log/events.ndjson").1.toOption.isSome := by
    decide +kernel
  have hWrong :
      (openedCommand (.text "one") "b").1.toOption.isSome := by
    decide +kernel
  obtain ⟨_, hLog⟩ := eq_of_isSome hLog
  obtain ⟨_, hWrong⟩ := eq_of_isSome hWrong
  have hFails :
      (runWithin (commandSetup (.text "one")) 1
        (openedCommand (.text "one") "b").2).1.toOption.isNone := by
    decide +kernel
  constructor
  · exact ⟨fun _ _ _ => .done .noProgress, _, _, hLog, rfl,
      by decide +kernel⟩
  · rcases hRun :
        runWithin (commandSetup (.text "one")) 1
          (openedCommand (.text "one") "b").2 with ⟨e | r, s⟩
    · have hEnd :
          (runWithin (commandSetup (.text "one")) 1
            (openedCommand (.text "one") "b").2).2 = s :=
        congrArg Prod.snd hRun
      refine ⟨_, e, s, hWrong, hRun, ?_, ?_⟩
      · rw [← hEnd]
        decide +kernel
      · rw [← hEnd]
        decide +kernel
    · rw [hRun] at hFails
      cases hFails

end Session

end Whittle
