import Whittle.Proofs.Session.Passes
import Whittle.Proofs.Session.Progress
import Whittle.Proofs.Session.Reporting
import Whittle.Proofs.Session.Soundness

/-
  Greedy runs come to an end.

  Key definitions include:
    * `Session.HasAccepted`
    * `Session.Lessens`

  Main statements:
    * `Session.ends_turn`
    * `Session.passes_comeToAnEnd`
    * `Session.greedy_comesToAnEnd`

  A pass that is followed by another one makes the accepted
  contents less, and a cleanup never makes them more.  So
  there are no more passes than the contents have bytes, and
  one more, when each carriage return counts twice.
-/

------------------------------------------------------------
-- Passes Of The Greedy Strategy
------------------------------------------------------------

namespace Whittle

namespace Session

open Work

variable {σ : Type} {u : Setup σ Greedy.Memory}
variable {s : Session σ Greedy.Memory}

/-
  The accepted contents are less when there is another pass,
  unless the pass was a cleanup.  Then they are no more.
-/
theorem ends_passOrCleanup
    {before : Nat}
    (hGreedy : u.strategy = greedy)
    (hReady : s.IsReady u) :
    Ends (passOrCleanup u (before + 1)) s
      (fun outcome t => t.IsReady u ∧
        (GoesOn (before + 1) outcome →
          t.bulk + strategyPasses before 1 ≤ s.bulk))
      (fun _ _ => True) := by
  rw [strategyPasses_one]
  unfold passOrCleanup GoesOn
  split
  · refine (ends_readyCleanup hReady true).mono ?_
      (fun _ _ _ => trivial)
    rintro outcome t (⟨hKeeps, _⟩ | ⟨⟨hReady', hLess, _⟩, _⟩)
    · exact ⟨hKeeps.isReady hReady,
        fun _ => Nat.le_of_eq hKeeps.bulk_eq⟩
    · exact ⟨hReady', fun _ => Nat.le_of_lt hLess⟩
  · rename_i hNumber
    refine (ends_readyPass hGreedy hReady).mono ?_ (fun _ _ h => h)
    rintro outcome t ⟨hReady', ⟨rfl, _⟩ | ⟨_, hLess⟩⟩
    · refine ⟨hReady', ?_⟩
      rintro ⟨_, hCleanup | hProgress⟩
      · exact absurd hCleanup hNumber
      · cases hProgress
    · exact ⟨hReady', fun _ => hLess⟩

/- What is logged and printed after a pass changes nothing. -/
theorem ends_turn
    {before : Nat}
    (hGreedy : u.strategy = greedy)
    (hReady : s.IsReady u)
    (size nodes : Nat) :
    Ends (turn u size nodes (before + 1)) s
      (fun outcome t => t.IsReady u ∧
        (GoesOn (before + 1) outcome →
          t.bulk + strategyPasses before 1 ≤ s.bulk))
      (fun _ _ => True) := by
  unfold turn
  apply ends_bind
  refine (ends_passOrCleanup hGreedy hReady).mono ?_
    (fun _ _ h => h)
  rintro outcome t ⟨hReady', hLess⟩
  apply ends_bind
  apply ends_get
  apply ends_bind
  refine (carries_keeps.goes_logEvent _ _ t).mono ?_
    (fun _ _ _ => trivial)
  intro _ v hLogged
  apply ends_bind
  refine (carries_keeps.goes_printProgress _ _ _ v).mono ?_
    (fun _ _ _ => trivial)
  intro _ w hPrinted
  have hKeeps := trans_of Keeps hLogged hPrinted
  refine ends_pure ⟨hKeeps.isReady hReady', ?_⟩
  rw [hKeeps.bulk_eq]
  exact hLess

/-
  Passes come to an end.  There is at most one pass of the
  strategy for each byte that there is, and one more.
-/
theorem passes_comeToAnEnd
    {size nodes before fuel : Nat}
    (hGreedy : u.strategy = greedy)
    (hReady : s.IsReady u)
    (hEnough : s.bulk < strategyPasses before fuel) :
    ∃ n result t,
      PassesEnd u size nodes before s n result t ∧
        n ≤ s.bulk + 1 ∧
        passes u size nodes fuel before s = (result, t) := by
  induction fuel generalizing before s with
  | zero => exact absurd hEnough (Nat.not_lt_zero _)
  | succ fuel ih =>
      have hOne := strategyPasses_one_le before
      rcases hTurn : turn u size nodes (before + 1) s with
        ⟨e | outcome, v⟩
      · refine ⟨_, _, _, .fails hTurn, by omega, ?_⟩
        unfold passes
        exact bind_of_error hTurn
      · rw [passes_eq_of_ok hTurn]
        by_cases hMore : GoesOn (before + 1) outcome
        · obtain ⟨hReady', hLess⟩ :=
            (ends_turn hGreedy hReady size nodes).of_ok hTurn
          have hLeft := hLess hMore
          rw [strategyPasses_succ] at hEnough
          have hEnough' :
              v.bulk < strategyPasses (before + 1) fuel := by
            omega
          obtain ⟨n, result, t, hRest, hMost, hPasses⟩ :=
            ih hReady' hEnough'
          rw [if_pos hMore]
          exact ⟨_, result, t, .goesOn hTurn hMore hRest,
            by omega, hPasses⟩
        · rw [if_neg hMore]
          exact ⟨_, _, _, .stops hTurn hMore, by omega, rfl⟩

end Session

end Whittle

------------------------------------------------------------
-- Accepting Less
------------------------------------------------------------

namespace Whittle

namespace Session

open Work

variable {σ τ : Type} {u : Setup σ τ}

/- Something has been accepted since an earlier state. -/
def HasAccepted
    (s t : Session σ τ) : Prop :=
  ∃ newer, t.trail = newer ++ s.trail ∧
    ∃ cs, .accepted cs ∈ newer

theorem Keeps.not_hasAccepted
    {s t : Session σ τ}
    (hKeeps : s.Keeps t) :
    ¬ s.HasAccepted t := by
  rintro ⟨newer, hTrail, cs, hAccepted⟩
  obtain ⟨newer', hTrail', hQuiet⟩ := hKeeps.trail
  have hSame : newer = newer' :=
    List.append_cancel_right (hTrail.symm.trans hTrail')
  cases hQuiet _ (hSame ▸ hAccepted)

/- A cleanup by which something is accepted makes it less. -/
theorem bulk_lt_of_tryCleanup
    {s : Session σ τ}
    {isStrict : Bool}
    (hReady : s.IsReady u)
    (hAccepted : s.HasAccepted (tryCleanup u isStrict s).2) :
    (tryCleanup u isStrict s).2.bulk < s.bulk := by
  revert hAccepted
  refine Ends.anyway
    (P := fun t => s.HasAccepted t → t.bulk < s.bulk)
    ((ends_readyCleanup hReady isStrict).mono ?_ ?_)
  · rintro _ t (⟨hKeeps, _⟩ | ⟨⟨_, hLess, _⟩, _⟩) hAccepted
    · exact absurd hAccepted hKeeps.not_hasAccepted
    · exact hLess
  · rintro _ t (hKeeps | ⟨_, hLess, _⟩) hAccepted
    · exact absurd hAccepted hKeeps.not_hasAccepted
    · exact hLess

/- What is ready stays ready, and becomes no more. -/
def Lessens
    (u : Setup σ τ)
    (s t : Session σ τ) : Prop :=
  s.IsReady u → t.IsReady u ∧ t.bulk ≤ s.bulk

instance : Std.Refl (Lessens u) :=
  ⟨fun _ hReady => ⟨hReady, Nat.le_refl _⟩⟩

instance : IsTrans (Session σ τ) (Lessens u) := by
  refine ⟨fun s t v hst htv hReady => ?_⟩
  obtain ⟨hReady', hLe⟩ := hst hReady
  obtain ⟨hReady'', hLe'⟩ := htv hReady'
  exact ⟨hReady'', Nat.le_trans hLe' hLe⟩

/- What is kept becomes no more. -/
theorem Keeps.lessens
    {s t : Session σ τ}
    (hKeeps : s.Keeps t) :
    Lessens u s t :=
  fun hReady =>
    ⟨hKeeps.isReady hReady, Nat.le_of_eq hKeeps.bulk_eq⟩

/- What is less is no more. -/
theorem Lowers.lessens
    {s t : Session σ τ}
    (hLowers : Lowers u s t) :
    Lessens u s t :=
  fun _ => ⟨hLowers.1, Nat.le_of_lt hLowers.2.1⟩

theorem carries_lessens :
    CarriesPasses u False (Lessens u) Any where
  host hGrows :=
    fun s => (carries_keeps.host hGrows s).mono
      (fun _ _ hKeeps => hKeeps.lessens) (fun _ _ _ => trivial)
  remind s memory := (carries_keeps.remind s memory).lessens
  remember s memory := (carries_keeps.remember s memory).lessens
  cleanup isStrict := by
    refine goes_of_guard fun s hReady => ?_
    refine (ends_readyCleanup hReady isStrict).mono ?_
      (fun _ _ _ => trivial)
    rintro _ t (⟨hKeeps, _⟩ | ⟨hLowers, _⟩)
    · exact hKeeps.lessens hReady
    · exact hLowers.lessens hReady
  remove nodes := by
    refine goes_of_guard fun s hReady => ?_
    refine (ends_readyRemove hReady).mono ?_ (fun _ _ h => h)
    rintro _ t (⟨_, hKeeps, _⟩ | ⟨_, hLowers⟩)
    · exact hKeeps.lessens hReady
    · exact hLowers.lessens hReady
  force hForce := hForce.elim

end Session

end Whittle

------------------------------------------------------------
-- Bounds
------------------------------------------------------------

namespace Whittle

namespace Session

open Work

section Any

variable {σ τ : Type} {u : Setup σ τ} {s : Session σ τ}

/- The bound of a run is enough for its passes. -/
theorem bulk_lt_strategyPasses
    (s : Session σ τ) :
    s.bulk < strategyPasses 0 (passBound s) := by
  have hCount := strategyPasses_eq 0 (passBound s)
  have hBound : passBound s = cleanupPeriod * (s.bulk + 2) := rfl
  rw [hBound] at hCount ⊢
  unfold cleanupPeriod at *
  omega

/- Reductions with the same passes are the same. -/
theorem reduce_eq
    {bound bound' : Nat}
    (hPasses : passLoop u bound s = passLoop u bound' s) :
    reduce u bound s = reduce u bound' s := by
  unfold reduce
  apply bind_eq_of_ends
  apply ends_get
  rcases hRun : passLoop u bound s with ⟨e | result, t⟩
  · rw [bind_of_error hRun, bind_of_error (hPasses ▸ hRun)]
  · rw [bind_of_ok hRun, bind_of_ok (hPasses ▸ hRun)]

end Any

section Greedy

variable {σ : Type} {u : Setup σ Greedy.Memory}
variable {s : Session σ Greedy.Memory}

/- Any two bounds that are enough lead to the same passes. -/
theorem passLoop_eq
    {bound bound' : Nat}
    (hGreedy : u.strategy = greedy)
    (hReady : s.IsReady u)
    (hEnough : s.bulk < strategyPasses 0 bound)
    (hEnough' : s.bulk < strategyPasses 0 bound') :
    passLoop u bound s = passLoop u bound' s := by
  rcases carries_lessens.reaches_passes s with
    ⟨e, t, hFails⟩ | ⟨t, hLessens, hPasses⟩
  · rw [hFails bound, hFails bound']
  · obtain ⟨hReady', hLe⟩ := hLessens hReady
    obtain ⟨n, result, v, hEnd, _, hRun⟩ :=
      passes_comeToAnEnd hGreedy hReady'
        (Nat.lt_of_le_of_lt hLe hEnough)
    obtain ⟨n', result', v', hEnd', _, hRun'⟩ :=
      passes_comeToAnEnd hGreedy hReady'
        (Nat.lt_of_le_of_lt hLe hEnough')
    rw [hPasses bound, hPasses bound']
    exact hRun.trans ((hEnd.unique hEnd').trans hRun'.symm)

/- Any two bounds that are enough lead to the same run. -/
theorem runWithin_eq
    {bound bound' : Nat}
    (hGreedy : u.strategy = greedy)
    (hReady : s.IsReady u)
    (hEnough : s.bulk < strategyPasses 0 bound)
    (hEnough' : s.bulk < strategyPasses 0 bound') :
    runWithin u bound s = runWithin u bound' s := by
  have hReduces :
      (do
        startCheck u
        reduce u bound) s =
      (do
        startCheck u
        reduce u bound') s := by
    apply bind_eq_of_ends
    refine (carries_keeps.goes_startCheck s).mono ?_
      (fun _ _ _ => trivial)
    intro _ t hKeeps
    rw [← hKeeps.bulk_eq] at hEnough hEnough'
    exact reduce_eq
      (passLoop_eq hGreedy (hKeeps.isReady hReady) hEnough hEnough')
  have hOpened : runOpened u bound s = runOpened u bound' s := by
    unfold runOpened
    rw [tryCatch_eq, tryCatch_eq, hReduces]
  unfold runWithin
  rw [hOpened]

/- A loop of passes has as few passes as the bulk says. -/
theorem strategyPasses_le_of_passLoop
    {bound passCount : Nat}
    {isForced : Bool}
    {t : Session σ Greedy.Memory}
    (hGreedy : u.strategy = greedy)
    (hReady : s.IsReady u)
    (hEnough : s.bulk < strategyPasses 0 bound)
    (hRun : passLoop u bound s = (.ok (passCount, isForced), t)) :
    strategyPasses 0 passCount ≤ s.bulk + 1 := by
  rcases carries_lessens.reaches_passes s with
    ⟨e, v, hFails⟩ | ⟨v, hLessens, hPasses⟩
  · cases (hFails bound).symm.trans hRun
  · obtain ⟨hReady', hLe⟩ := hLessens hReady
    obtain ⟨n, result, w, hEnd, hMost, hPasses'⟩ :=
      passes_comeToAnEnd hGreedy hReady'
        (Nat.lt_of_le_of_lt hLe hEnough)
    cases ((hPasses bound).trans hPasses').symm.trans hRun
    obtain ⟨fuel, hCount, hNumber⟩ := hEnd.eq_strategyPasses
    rw [Nat.zero_add] at hCount
    rw [hCount, ← hNumber]
    omega

end Greedy

end Session

end Whittle

------------------------------------------------------------
-- Whole Runs
------------------------------------------------------------

namespace Whittle

namespace Session

open Work

variable {σ : Type} {u : Setup σ Greedy.Memory}

/-
  Runs of the greedy strategy come to an end, if the charset
  writes character by character and the log is not written to
  the files that are reduced.  A pass with
  progress makes what has been accepted less, and so does a
  cleanup by which something is accepted.  From every state
  the passes come to an end, whatever the check says, and the
  passes of the strategy are at most one more than the bulk
  at the start.  So the bound to the number of passes makes no
  difference to a run.
-/
theorem greedy_comesToAnEnd
    {fs : List FilePair}
    {h : Host}
    {start : Session σ Greedy.Memory}
    (hGreedy : u.strategy = greedy)
    (hCharwise : u.rules.charset.IsCharwise)
    (hApart : ∀ p ∈ targets fs, u.log.IsApart p)
    (hOpen : openFiles u fs (initial u h) = (.ok (), start)) :
    (∀ s, Operates u False start s →
      (∀ t, singlePass u s = (.ok .progressed, t) →
        t.bulk < s.bulk) ∧
      (∀ isStrict, s.HasAccepted (tryCleanup u isStrict s).2 →
        (tryCleanup u isStrict s).2.bulk < s.bulk) ∧
      ∀ size nodes before, ∃ n result t,
        PassesEnd u size nodes before s n result t ∧
          n ≤ s.bulk + 1) ∧
    (∀ bound, start.bulk < strategyPasses 0 bound →
      runWithin u bound start = run u start) ∧
    ∀ r t, run u start = (.ok r, t) →
      strategyPasses 0 r.passCount ≤ start.bulk + 1 := by
  obtain ⟨t₀, w, cs₀, hStarts, rfl⟩ := starts_of_openFiles hOpen
  have hReady := hStarts.isReady hCharwise hApart
  have hEnough := bulk_lt_strategyPasses (t₀.afterOpening w cs₀)
  refine ⟨fun s hOperates => ?_, fun bound hBound => ?_, ?_⟩
  · have hReady' := hOperates.isReady hReady
    refine ⟨fun t hPass => ?_, fun isStrict => ?_, ?_⟩
    · obtain ⟨_, ⟨hNone, _⟩ | ⟨_, hLess⟩⟩ :=
        (ends_readyPass hGreedy hReady').of_ok hPass
      · cases hNone
      · exact hLess
    · exact bulk_lt_of_tryCleanup hReady'
    · intro size nodes before
      have hFuel :
          s.bulk < strategyPasses before (2 * s.bulk + 2) := by
        have hCount := strategyPasses_eq before (2 * s.bulk + 2)
        unfold cleanupPeriod at hCount
        omega
      obtain ⟨n, result, t, hEnd, hMost, _⟩ :=
        passes_comeToAnEnd hGreedy hReady' hFuel
      exact ⟨n, result, t, hEnd, hMost⟩
  · exact runWithin_eq hGreedy hReady hBound hEnough
  · intro r t hRun
    unfold run runWithin at hRun
    rcases hOpened : runOpened u (passBound (t₀.afterOpening w cs₀))
      (t₀.afterOpening w cs₀) with ⟨ending, v⟩
    rw [hOpened] at hRun
    cases hRun
    obtain ⟨s, hKeeps, _, _, _, hPasses⟩ :=
      (reports_runOpened _ _).of_ok hOpened
    rw [← hKeeps.bulk_eq] at hEnough ⊢
    exact strategyPasses_le_of_passLoop hGreedy
      (hKeeps.isReady hReady) hEnough hPasses

/- A greedy run that makes a file shorter twice. -/
theorem greedy_comesToAnEnd_small :
    ∃ start r s,
      greedyOpened (·.any (·.contains 66)) "b" [65, 65, 66] =
          (.ok (), start) ∧
        run (greedySetup (·.any (·.contains 66))) start =
          (.ok r, s) ∧
        strategyPasses 0 r.passCount ≤ start.bulk + 1 := by
  have hOpened :
      (greedyOpened (·.any (·.contains 66)) "b" [65, 65, 66]
        ).1.toOption.isSome := by
    decide +kernel
  have hRan :
      (runWithin (greedySetup (·.any (·.contains 66))) 5
        (greedyOpened (·.any (·.contains 66)) "b" [65, 65, 66]).2
        ).1.toOption.isSome := by
    decide +kernel
  obtain ⟨_, hOpen⟩ := eq_of_isSome hOpened
  obtain ⟨r, hRun⟩ := eq_of_isSome hRan
  obtain ⟨_, hSame, hMost⟩ :=
    greedy_comesToAnEnd rfl
      (Charset.isCharwise_known Codec.isCharwise_utf8)
      (by decide +kernel) hOpen
  rw [hSame 5 (by decide +kernel)] at hRun
  exact ⟨_, r, _, hOpen, hRun, hMost r _ hRun⟩

/- A greedy setup like the small one, for texts of any lines. -/
def growingSetup : Setup Unit Greedy.Memory :=
  { greedySetup fun _ => true with
    rules :=
      ⟨{ oneLine with parse := fun name _ => oneLine.parse name [] },
        .known .utf8, false⟩ }

/- The file of the events of the run, opened as its output. -/
def growingOpened :
    Except Failure Unit × Session Unit Greedy.Memory :=
  openFiles growingSetup [⟨"a", "log/events.ndjson"⟩]
    (initial growingSetup
      (.ofDisk
        ⟨[(.ofText "a", .file [65, 66]),
          (.ofText "log", .directory)]⟩))

/- Two files, the first of them opened with the second as its output. -/
def chainedOpened
    (first second : Bytes) :
    Except Failure Unit × Session Unit Greedy.Memory :=
  openFiles (greedySetup fun _ => true) [⟨"a", "b"⟩, ⟨"b", "c"⟩]
    (initial (greedySetup fun _ => true)
      (.ofDisk
        ⟨[(.ofText "a", .file first), (.ofText "b", .file second),
          (.ofText "log", .directory)]⟩))

/-
  If the output is the file of the events of the run, the
  answer of the check has been logged to it before a cut is
  accepted.  So a pass with progress makes what has been
  accepted more.  And if an output is the input of a file
  further on, its contents are copied twice.  So there can be
  more passes than the bulk of the inputs allows.
-/
theorem exists_grows :
    (∃ start t,
      growingSetup.strategy = greedy ∧
        growingSetup.rules.charset = .known .utf8 ∧
        growingOpened = (.ok (), start) ∧
        singlePass growingSetup start = (.ok .progressed, t) ∧
        start.bulk < t.bulk) ∧
      ∃ start r t,
        chainedOpened [65] [] = (.ok (), start) ∧
          run (greedySetup fun _ => true) start = (.ok r, t) ∧
          Whittle.bulk [65] + Whittle.bulk [] + 1 <
            strategyPasses 0 r.passCount := by
  have hOpened : growingOpened.1.toOption.isSome := by
    decide +kernel
  have hProgressed :
      (singlePass growingSetup growingOpened.2).1.toOption =
        some .progressed := by
    decide +kernel
  have hChained : (chainedOpened [65] []).1.toOption.isSome := by
    decide +kernel
  have hPassed :
      (run (greedySetup fun _ => true) (chainedOpened [65] []).2
        ).1.toOption.map (strategyPasses 0 ·.passCount) =
          some 3 := by
    decide +kernel
  obtain ⟨_, hOpen⟩ := eq_of_isSome hOpened
  obtain ⟨_, hOpen'⟩ := eq_of_isSome hChained
  obtain ⟨r, hRun, hCount⟩ := Option.map_eq_some_iff.mp hPassed
  refine ⟨⟨_, _, rfl, rfl, hOpen, eq_of_toOption hProgressed,
    by decide +kernel⟩, _, r, _, hOpen', eq_of_toOption hRun, ?_⟩
  rw [hCount]
  decide

end Session

end Whittle
