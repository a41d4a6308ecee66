import Whittle.Proofs.Session.Ending

/-
  What is accepted in a reduction, and what it leaves.

  Main statements:
    * `Session.accepted_follows_check`
    * `Session.endsAccepted_iff`
-/

------------------------------------------------------------
-- Small Setups
------------------------------------------------------------

namespace Whittle

namespace Session

/-
  A language in which every text is a node that stands at the
  start of the second line.
-/
def secondLine : FrontEnd where
  name := "second line"
  parse := fun name _ =>
    some
      { tree :=
          { identity := 0
            name := name
            entries :=
              #[⟨"Text", none, ⟨⟨2, 1⟩, ⟨2, 1⟩⟩, []⟩]
            parents := #[none] }
        relations := fun _ => .none }
  isRemovableGap := fun _ => true

/- A strategy that does nothing but report an outcome. -/
def reporting
    (outcome : Outcome) : Strategy Unit where
  initial := ()
  pass := fun _ _ _ => .done outcome
  statistics := fun _ => []
  summary := fun _ => []

/-
  A setup whose check always gives the same answer, with a
  log in the directory that is called `log`.
-/
def smallSetup
    (answer : Bool)
    (outcome : Outcome) : Setup Unit Unit where
  rules := ⟨secondLine, .known .utf8, false⟩
  check :=
    { Check.always with ask := fun _ _ => (.ok answer, ()) }
  strategy := reporting outcome
  log := ⟨⟨.number 0, "", "run"⟩, some (.ofText "log"), false⟩

/- The files that are opened for a small setup. -/
def opened
    (u : Setup Unit Unit)
    (fs : List FilePair)
    (contents : Bytes) :
    Except Failure Unit × Session Unit Unit :=
  openFiles u fs
    (initial u
      (.ofDisk
        ⟨[(.ofText "a", .file contents),
          (.ofText "log", .directory)]⟩))

theorem eq_ok_of_toOption
    {α ε : Type}
    {result : Except ε α}
    {a : α}
    (hSome : result.toOption = some a) :
    result = .ok a := by
  cases result with
  | ok b =>
      cases hSome
      rfl
  | error e => cases hSome

theorem eq_of_toOption
    {α ρ : Type}
    {ending : Except Failure α × ρ}
    {a : α}
    (hSome : ending.1.toOption = some a) :
    ending = (.ok a, ending.2) := by
  rw [← eq_ok_of_toOption hSome]

theorem eq_of_isSome
    {α ρ : Type}
    {ending : Except Failure α × ρ}
    (hSome : ending.1.toOption.isSome) :
    ∃ a, ending = (.ok a, ending.2) := by
  obtain ⟨a, hResult⟩ := Option.isSome_iff_exists.mp hSome
  exact ⟨a, eq_of_toOption hResult⟩

end Session

end Whittle

------------------------------------------------------------
-- What Is Accepted
------------------------------------------------------------

namespace Whittle

namespace Session

variable {σ τ : Type} {u : Setup σ τ}

/-
  What is accepted after the files have been opened was in
  all of them when the check was asked just before, and the
  check said yes.
-/
theorem exists_asked
    {ps : List FilePath}
    {later older first : List Moment}
    {cs cs₀ : List Bytes}
    (hFirst : first = [.accepted cs₀])
    (hSound :
      Moment.AreSound u False ps
        (later ++ .accepted cs :: (older ++ first))) :
    u.rules.AreReadable ps cs ∧ u.Passes ps cs ∧
      ∃ rest, older = .asked cs (some true) :: rest := by
  subst hFirst
  obtain ⟨⟨hReadable, hBefore⟩, hOlder⟩ := hSound.of_append
  cases older with
  | nil =>
      rcases hBefore with hNil | hAsked | hForced
      · cases hNil
      · cases hAsked
      · cases hForced
  | cons m rest =>
      rcases hBefore with hNil | hAsked | hForced
      · cases hNil
      · cases hAsked
        exact ⟨hReadable, hOlder.1, rest, rfl⟩
      · cases hForced
        exact hOlder.1.elim

/-
  In a run whose strategy only tries, everything that is
  accepted after the files have been opened was accepted
  directly after the check said yes to it, and all files can
  be read from it.  The outputs are left with what was
  accepted last.
-/
theorem accepted_follows_check
    {fs : List FilePair}
    {h : Host}
    {start s : Session σ τ}
    {bound : Nat}
    {result : Except Failure Report}
    (hDistinct : FilePath.AreDistinct (targets fs))
    (hApart : ∀ p ∈ targets fs, u.log.IsApart p)
    (hTries : u.strategy.OnlyTries)
    (hOpen : openFiles u fs (initial u h) = (.ok (), start))
    (hRun : runWithin u bound start = (result, s)) :
    ∃ cs₀ newer,
      start.trail = [.accepted cs₀] ∧
      start.disk.Holds (targets fs) cs₀ ∧
      s.trail = newer ++ [.accepted cs₀] ∧
      (∀ later cs older, newer = later ++ .accepted cs :: older →
        u.rules.AreReadable (targets fs) cs ∧
          u.Passes (targets fs) cs ∧
          ∃ rest, older = .asked cs (some true) :: rest) ∧
      ∃ cs, s.lastAccepted = some cs ∧
        s.disk.Holds (targets fs) cs := by
  have hOpened := opened_of_openFiles hDistinct hApart hOpen
  obtain ⟨t, hEnds⟩ :=
    exists_endsAfter (.inr hTries) (hOpened.kept False)
      hOpened.isSettled hRun
  have hKept := (hOpened.kept False).follows hEnds.follows
  have hPaths : t.paths = targets fs := by
    rw [hEnds.follows.paths_eq, hOpened.paths]
  obtain ⟨cs₀, hFirst, hHolds⟩ := hOpened.accepted
  obtain ⟨newer, hTrail⟩ := hEnds.follows.trail_suffix
  refine ⟨cs₀, newer, hFirst, ?_, ?_, ?_, t.workspace.snapshots,
    ?_, ?_⟩
  · rw [← hOpened.paths]
    exact hHolds
  · rw [hEnds.trail, hTrail, hFirst]
  · rintro later cs older rfl
    have hSound := hKept.sound
    rw [hPaths, hTrail, List.append_assoc] at hSound
    exact exists_asked hFirst hSound
  · unfold lastAccepted
    rw [hEnds.trail]
    exact hKept.accepted
  · have hRestored : t.IsRestored := by
      cases result with
      | error e => exact hEnds.failed e rfl
      | ok r =>
          have hReports := hEnds.reported r rfl
          cases hForced : r.isForced with
          | true => exact (hReports.forced hForced).1.elim
          | false => exact hReports.restored hForced
    rw [hEnds.disk, ← hPaths]
    exact hRestored

/- A run of a setup whose check says yes to everything. -/
theorem accepted_follows_check_small :
    ∃ start s : Session Unit Unit, ∃ cs,
      opened (smallSetup true .noProgress) [⟨"a", "b"⟩]
          [65, 10, 66] = (.ok (), start) ∧
        s = (runWithin (smallSetup true .noProgress) 1 start).2 ∧
        s.lastAccepted = some cs ∧
        s.disk.Holds (targets [⟨"a", "b"⟩]) cs := by
  have hTries :
      (smallSetup true .noProgress).strategy.OnlyTries :=
    fun _ _ _ => .done .noProgress Outcome.noConfusion
  have hOpened :
      (opened (smallSetup true .noProgress) [⟨"a", "b"⟩]
        [65, 10, 66]).1.toOption.isSome := by
    decide +kernel
  obtain ⟨_, hOpen⟩ := eq_of_isSome hOpened
  obtain ⟨_, _, _, _, _, _, cs, hLast, hHolds⟩ :=
    accepted_follows_check (by decide +kernel)
      (by decide +kernel) hTries hOpen (Prod.eta _).symm
  exact ⟨_, _, cs, hOpen, rfl, hLast, hHolds⟩

end Session

end Whittle

------------------------------------------------------------
-- What Is Not Accepted
------------------------------------------------------------

namespace Whittle

namespace Session

/-
  A run that ends with a report, but leaves its outputs with
  what was never accepted.
-/
def LeavesUnaccepted
    (u : Setup Unit Unit)
    (fs : List FilePair)
    (contents : Bytes) : Prop :=
  ∃ start r s,
    opened u fs contents = (.ok (), start) ∧
      runWithin u 1 start = (.ok r, s) ∧
      ∀ cs, .accepted cs ∈ s.trail →
        ¬ s.disk.Holds (targets fs) cs

/- One output is left with what was never accepted. -/
theorem leavesUnaccepted_of_run
    {u : Setup Unit Unit}
    {output : String}
    {contents : Bytes}
    (hOpen :
      (opened u [⟨"a", output⟩] contents).1.toOption.isSome)
    (hRun :
      let start := (opened u [⟨"a", output⟩] contents).2
      let run := runWithin u 1 start
      run.1.toOption.isSome ∧
        run.2.trail.filterMap Moment.accepted? = [[contents]] ∧
        (run.2.disk.read (.ofText output)).toOption ≠
          some contents) :
    LeavesUnaccepted u [⟨"a", output⟩] contents := by
  obtain ⟨_, hOpened⟩ := eq_of_isSome hOpen
  obtain ⟨hEnd, hAccepted, hRead⟩ := hRun
  obtain ⟨r, hReport⟩ := eq_of_isSome hEnd
  refine ⟨_, r, _, hOpened, hReport, ?_⟩
  intro cs hMem hHolds
  have hCs :
      cs ∈ List.filterMap Moment.accepted? _ :=
    List.mem_filterMap.mpr ⟨_, hMem, rfl⟩
  rw [hAccepted, List.mem_singleton] at hCs
  subst hCs
  cases hHolds with
  | cons hContents _ =>
      apply hRead
      rw [hContents]
      rfl

/-
  An output that is the file of the events of the run ends up
  with events, although the strategy only tries.  A strategy
  that does nothing but report a forced stop leaves what the
  check has refused.
-/
theorem exists_leavesUnaccepted :
    ((smallSetup false .noProgress).strategy.OnlyTries ∧
      LeavesUnaccepted (smallSetup false .noProgress)
        [⟨"a", "log/events.ndjson"⟩] [10]) ∧
      LeavesUnaccepted (smallSetup false .forcedStop)
        [⟨"a", "b"⟩] [65, 10, 66] := by
  refine ⟨⟨?_, ?_⟩, ?_⟩
  · exact fun _ _ _ => .done .noProgress Outcome.noConfusion
  · exact leavesUnaccepted_of_run (by decide +kernel)
      (by decide +kernel)
  · exact leavesUnaccepted_of_run (by decide +kernel)
      (by decide +kernel)

end Session

end Whittle

------------------------------------------------------------
-- What Is Left
------------------------------------------------------------

namespace Whittle

namespace Session

variable {σ τ : Type} {u : Setup σ τ}

/-
  The reduction has been forced to stop, and what was tried
  last has not been accepted.
-/
def StopsRefused
    (result : Except Failure Report)
    (s : Session σ τ) : Prop :=
  ∃ r, result = .ok r ∧ r.isForced = true ∧
    s.trail.head?.map Moment.contents ≠ s.lastAccepted

/-
  The outputs hold what was accepted last, all of them can be
  read, and the final size is their size.
-/
def EndsAccepted
    (u : Setup σ τ)
    (ps : List FilePath)
    (result : Except Failure Report)
    (s : Session σ τ) : Prop :=
  ∃ cs, s.lastAccepted = some cs ∧ s.disk.Holds ps cs ∧
    u.rules.AreReadable ps cs ∧
    ∀ r, result = .ok r → r.finalSize = total (cs.map List.length)

/- What was accepted last can be read. -/
theorem IsKept.areReadable
    {mayForce : Prop}
    {s : Session σ τ}
    (hKept : s.IsKept u mayForce) :
    u.rules.AreReadable s.paths s.workspace.snapshots := by
  have hAccepted := hKept.accepted
  unfold lastAccepted at hAccepted
  obtain ⟨newer, m, older, hTrail, hMoment, _⟩ :=
    List.findSome?_eq_some_iff.mp hAccepted
  have hSound := hKept.sound
  rw [hTrail] at hSound
  cases m with
  | accepted cs =>
      cases hMoment
      exact hSound.of_append.1.1
  | skipped | asked | forced => cases hMoment

/-
  However a reduction ends, with a result or a failure, with
  any strategy and any check, its outputs hold what was
  accepted last, unless it was forced to stop with contents
  that have not been accepted.
-/
theorem endsAccepted_iff
    {fs : List FilePair}
    {h : Host}
    {start s : Session σ τ}
    {bound : Nat}
    {result : Except Failure Report}
    (hDistinct : FilePath.AreDistinct (targets fs))
    (hApart : ∀ p ∈ targets fs, u.log.IsApart p)
    (hOpen : openFiles u fs (initial u h) = (.ok (), start))
    (hRun : runWithin u bound start = (result, s)) :
    EndsAccepted u (targets fs) result s ↔
      ¬ StopsRefused result s := by
  have hOpened := opened_of_openFiles hDistinct hApart hOpen
  obtain ⟨t, hEnds⟩ :=
    exists_endsAfter (.inl trivial) (hOpened.kept True)
      hOpened.isSettled hRun
  have hKept := (hOpened.kept True).follows hEnds.follows
  have hPaths : t.paths = targets fs := by
    rw [hEnds.follows.paths_eq, hOpened.paths]
  have hLast : s.lastAccepted = some t.workspace.snapshots := by
    unfold lastAccepted
    rw [hEnds.trail]
    exact hKept.accepted
  constructor
  · rintro ⟨cs, hAccepted, hHolds, _⟩ ⟨r, hResult, hForced, hHead⟩
    obtain ⟨_, m, rest, hTrail, hMoment⟩ :=
      (hEnds.reported r hResult).forced hForced
    rw [hEnds.disk, ← hPaths] at hHolds
    apply hHead
    rw [hAccepted, hEnds.trail, hTrail]
    exact congrArg some (hMoment.unique hHolds)
  · intro hNot
    have hRestored : t.IsRestored := by
      cases result with
      | error e => exact hEnds.failed e rfl
      | ok r =>
          have hReports := hEnds.reported r rfl
          cases hForced : r.isForced with
          | false => exact hReports.restored hForced
          | true =>
              obtain ⟨_, m, rest, hTrail, hMoment⟩ :=
                hReports.forced hForced
              by_cases hHead : m.contents = t.workspace.snapshots
              · rw [hHead] at hMoment
                exact hMoment
              · refine absurd ⟨r, rfl, hForced, ?_⟩ hNot
                rw [hLast, hEnds.trail, hTrail]
                exact fun h => hHead (Option.some.inj h)
    refine ⟨t.workspace.snapshots, hLast, ?_, ?_, ?_⟩
    · rw [hEnds.disk, ← hPaths]
      exact hRestored
    · rw [← hPaths]
      exact hKept.areReadable
    · exact fun r hResult => (hEnds.reported r hResult).size

/-
  A run that ends well.  The same setup with a forced stop in
  its place ends with contents that the check has refused.
-/
theorem endsAccepted_iff_small :
    (∃ start result s,
      opened (smallSetup false .noProgress) [⟨"a", "b"⟩]
          [65, 10, 66] = (.ok (), start) ∧
        runWithin (smallSetup false .noProgress) 1 start =
          (result, s) ∧
        EndsAccepted (smallSetup false .noProgress)
          (targets [⟨"a", "b"⟩]) result s) ∧
      ∃ start result s,
        opened (smallSetup false .forcedStop) [⟨"a", "b"⟩]
            [65, 10, 66] = (.ok (), start) ∧
          runWithin (smallSetup false .forcedStop) 1 start =
            (result, s) ∧
          ¬ EndsAccepted (smallSetup false .forcedStop)
            (targets [⟨"a", "b"⟩]) result s := by
  have hOpened :
      ∀ outcome,
        (opened (smallSetup false outcome) [⟨"a", "b"⟩]
          [65, 10, 66]).1.toOption.isSome := by
    intro outcome
    cases outcome <;> decide +kernel
  constructor
  · obtain ⟨_, hOpen⟩ := eq_of_isSome (hOpened .noProgress)
    refine ⟨_, _, _, hOpen, (Prod.eta _).symm, ?_⟩
    refine (endsAccepted_iff (by decide +kernel)
      (by decide +kernel) hOpen (Prod.eta _).symm).mpr ?_
    rintro ⟨r, hResult, hForced, _⟩
    have hNot :
        (runWithin (smallSetup false .noProgress) 1
          (opened (smallSetup false .noProgress) [⟨"a", "b"⟩]
            [65, 10, 66]).2).1.toOption.any (·.isForced) =
          false := by
      decide +kernel
    rw [hResult] at hNot
    exact Bool.noConfusion (hForced.symm.trans hNot)
  · obtain ⟨_, hOpen⟩ := eq_of_isSome (hOpened .forcedStop)
    refine ⟨_, _, _, hOpen, (Prod.eta _).symm, ?_⟩
    intro hEnds
    refine (endsAccepted_iff (by decide +kernel)
      (by decide +kernel) hOpen (Prod.eta _).symm).mp hEnds ?_
    have hRun :
        (runWithin (smallSetup false .forcedStop) 1
          (opened (smallSetup false .forcedStop) [⟨"a", "b"⟩]
            [65, 10, 66]).2).1.toOption.any (·.isForced) =
          true := by
      decide +kernel
    obtain ⟨r, hSome, hForced⟩ := (Option.any_eq_true _ _).mp hRun
    refine ⟨r, eq_ok_of_toOption hSome, hForced, ?_⟩
    decide +kernel

end Session

end Whittle
