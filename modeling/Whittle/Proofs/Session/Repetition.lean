import Whittle.Proofs.Session.Soundness

/-
  No contents are tried twice.

  Key definitions include:
    * `Moment.IsMet`
    * `Session.IsRemembered`

  Main statements:
    * `Session.IsRemembered.step`
    * `Session.asked_once`

  What is known is the fingerprints of the contents that the
  check was asked about, and of those that were accepted.  It
  is asked about nothing that is known, and nothing else is
  skipped.
-/

------------------------------------------------------------
-- Contents That Have Been Met
------------------------------------------------------------

namespace Whittle

namespace Moment

/-
  The check was asked about some contents at an earlier
  moment, or they were accepted.
-/
def IsMet
    (cs : List Bytes)
    (older : List Moment) : Prop :=
  .accepted cs ∈ older ∨ ∃ answer, .asked cs answer ∈ older

theorem IsMet.cons
    {cs : List Bytes}
    {m : Moment}
    {older : List Moment}
    (hMet : IsMet cs older) :
    IsMet cs (m :: older) := by
  rcases hMet with hAccepted | ⟨answer, hAsked⟩
  · exact .inl (List.mem_cons_of_mem m hAccepted)
  · exact .inr ⟨answer, List.mem_cons_of_mem m hAsked⟩

/-
  The check is asked about contents that have not been met,
  and contents are skipped if they have.
-/
def IsUnrepeated : Moment → List Moment → Prop
  | asked cs _, older => ¬ IsMet cs older
  | skipped cs, older => IsMet cs older
  | _, _ => True

end Moment

end Whittle

------------------------------------------------------------
-- What Is Known
------------------------------------------------------------

namespace Whittle

namespace Session

open Moment Work

variable {σ τ : Type} {u : Setup σ τ}

/-
  What holds at every moment of a run without force.
    * `known` : what is known is the fingerprint of contents
      that have been met.
    * `met` : contents that have been met are known.
    * `unforced` : nothing has been forced.
    * `unrepeated` : nothing was asked about twice.
-/
structure IsRemembered
    (s : Session σ τ) : Prop where
  known : ∀ k ∈ s.known, ∃ cs,
    Workspace.AreShort cs ∧ k = Workspace.fingerprint cs ∧
      IsMet cs s.trail
  met : ∀ cs, IsMet cs s.trail →
    Workspace.AreShort cs ∧ Workspace.fingerprint cs ∈ s.known
  unforced : ∀ cs, .forced cs ∉ s.trail
  unrepeated : AllAlong IsUnrepeated s.trail

theorem IsRemembered.mem_known_iff
    {s : Session σ τ}
    {cs : List Bytes}
    (hRemembered : s.IsRemembered)
    (hShort : Workspace.AreShort cs) :
    Workspace.fingerprint cs ∈ s.known ↔ IsMet cs s.trail := by
  constructor
  · intro hKnown
    obtain ⟨cs', hShort', hSame, hMet⟩ :=
      hRemembered.known _ hKnown
    rw [Workspace.eq_of_fingerprint hShort hShort' hSame]
    exact hMet
  · exact fun hMet => (hRemembered.met cs hMet).2

theorem IsRemembered.congr
    {s t : Session σ τ}
    (hRemembered : s.IsRemembered)
    (hKnown : t.known = s.known)
    (hTrail : t.trail = s.trail) :
    t.IsRemembered := by
  constructor
  · rw [hKnown, hTrail]
    exact hRemembered.known
  · rw [hKnown, hTrail]
    exact hRemembered.met
  · rw [hTrail]
    exact hRemembered.unforced
  · rw [hTrail]
    exact hRemembered.unrepeated

/- A moment about contents that have been met is remembered. -/
theorem IsRemembered.note
    {s t : Session σ τ}
    {m : Moment}
    (hRemembered : s.IsRemembered)
    (hKnown : t.known = s.known)
    (hTrail : t.trail = m :: s.trail)
    (hMet : IsMet m.contents s.trail)
    (hNoted : (∃ cs, m = .skipped cs) ∨ ∃ cs, m = .accepted cs) :
    t.IsRemembered := by
  have hOlder :
      ∀ cs, IsMet cs (m :: s.trail) → IsMet cs s.trail := by
    rintro cs (hAccepted | ⟨answer, hAsked⟩)
    · rcases List.mem_cons.mp hAccepted with rfl | hMem
      · exact hMet
      · exact .inl hMem
    · rcases List.mem_cons.mp hAsked with rfl | hMem
      · exact hMet
      · exact .inr ⟨answer, hMem⟩
  constructor
  · intro k hk
    rw [hKnown] at hk
    obtain ⟨cs, hShort, hSame, hMet⟩ := hRemembered.known k hk
    rw [hTrail]
    exact ⟨cs, hShort, hSame, hMet.cons⟩
  · rw [hKnown, hTrail]
    exact fun cs hMet => hRemembered.met cs (hOlder cs hMet)
  · intro cs hForced
    rw [hTrail] at hForced
    rcases List.mem_cons.mp hForced with rfl | hMem
    · rcases hNoted with ⟨_, hm⟩ | ⟨_, hm⟩ <;> cases hm
    · exact hRemembered.unforced cs hMem
  · rw [hTrail]
    refine ⟨?_, hRemembered.unrepeated⟩
    rcases hNoted with ⟨_, rfl⟩ | ⟨_, rfl⟩
    · exact hMet
    · trivial

/- Contents that the check is asked about are remembered. -/
theorem IsRemembered.ask
    {s : Session σ τ}
    {cs : List Bytes}
    (hRemembered : s.IsRemembered)
    (hShort : Workspace.AreShort cs)
    (hNew : Workspace.fingerprint cs ∉ s.known) :
    (s.afterAsking u cs).IsRemembered := by
  constructor
  · intro k hk
    rcases List.mem_cons.mp hk with rfl | hMem
    · exact ⟨cs, hShort, rfl, .inr ⟨_, List.mem_cons_self⟩⟩
    · obtain ⟨cs', hShort', hSame, hMet⟩ :=
        hRemembered.known k hMem
      exact ⟨cs', hShort', hSame, hMet.cons⟩
  · intro cs' hMet
    have hOlder :
        IsMet cs' s.trail →
          Workspace.AreShort cs' ∧
            Workspace.fingerprint cs' ∈
              Workspace.fingerprint cs :: s.known :=
      fun h => ⟨(hRemembered.met cs' h).1,
        List.mem_cons_of_mem _ (hRemembered.met cs' h).2⟩
    rcases hMet with hAccepted | ⟨answer, hAsked⟩
    · rcases List.mem_cons.mp hAccepted with hEq | hMem
      · cases hEq
      · exact hOlder (.inl hMem)
    · rcases List.mem_cons.mp hAsked with hEq | hMem
      · cases hEq
        exact ⟨hShort, List.mem_cons_self⟩
      · exact hOlder (.inr ⟨answer, hMem⟩)
  · intro cs' hForced
    rcases List.mem_cons.mp hForced with hEq | hMem
    · cases hEq
    · exact hRemembered.unforced cs' hMem
  · refine ⟨?_, hRemembered.unrepeated⟩
    exact fun hMet => hNew (hRemembered.met cs hMet).2

theorem IsRemembered.step
    {s t : Session σ τ}
    (hRemembered : s.IsRemembered)
    (hStep : Step u False s t) :
    t.IsRemembered := by
  cases hStep with
  | write => exact hRemembered.congr rfl rfl
  | remind => exact hRemembered.congr rfl rfl
  | remember => exact hRemembered.congr rfl rfl
  | skip cs hHolds hShort hKnown =>
      have hMet := (hRemembered.mem_known_iff hShort).mp hKnown
      exact hRemembered.note rfl rfl hMet (.inl ⟨cs, rfl⟩)
  | ask cs hHolds hShort hNew => exact hRemembered.ask hShort hNew
  | force cs hForce => exact hForce.elim
  | refuse => exact hRemembered.congr rfl rfl
  | accept w cs hCommits hHolds hHead =>
      have hAsked :
          .asked cs (some true) ∈ s.trail := by
        rcases hHead with hAsked | hForced
        · exact List.mem_of_mem_head? hAsked
        · exact absurd (List.mem_of_mem_head? hForced)
            (hRemembered.unforced cs)
      exact hRemembered.note rfl rfl (.inr ⟨_, hAsked⟩)
        (.inr ⟨cs, rfl⟩)

theorem IsRemembered.follows
    {s t : Session σ τ}
    (hRemembered : s.IsRemembered)
    (hFollows : Follows u False s t) :
    t.IsRemembered := by
  induction hFollows with
  | refl => exact hRemembered
  | tail _ hStep ih => exact ih.step hStep

/- When files have been opened their contents are known. -/
theorem Starts.isRemembered
    {fs : List FilePair}
    {s : Session σ τ}
    {w : Workspace}
    {cs : List Bytes}
    (hStarts : Starts u fs s w cs) :
    (s.afterOpening w cs).IsRemembered := by
  have hTrail : (s.afterOpening w cs).trail = [.accepted cs] :=
    congrArg (List.cons (accepted cs)) hStarts.trail
  have hKnown :
      (s.afterOpening w cs).known = [Workspace.fingerprint cs] :=
    congrArg (Workspace.fingerprint cs :: ·) hStarts.known
  constructor
  · rw [hKnown, hTrail]
    intro k hk
    rw [List.mem_singleton.mp hk]
    exact ⟨cs, hStarts.short, rfl, .inl (by simp)⟩
  · rw [hKnown, hTrail]
    rintro cs' (hAccepted | ⟨answer, hAsked⟩)
    · cases List.mem_singleton.mp hAccepted
      exact ⟨hStarts.short, by simp⟩
    · cases List.mem_singleton.mp hAsked
  · rw [hTrail]
    simp
  · rw [hTrail]
    exact ⟨trivial, trivial⟩

end Session

end Whittle

------------------------------------------------------------
-- Whole Runs
------------------------------------------------------------

namespace Whittle

namespace Session

open Moment Work

variable {σ τ : Type} {u : Setup σ τ}

/-
  The moments of a run that is over are those of a state that
  steps lead to.
-/
theorem exists_follows_of_runWithin
    {mayForce : Prop}
    {start s : Session σ τ}
    {bound : Nat}
    {result : Except Failure Report}
    (hStrategy : mayForce ∨ u.strategy.NeverForces)
    (hApart : start.IsApart u)
    (hRun : runWithin u bound start = (result, s)) :
    ∃ t, Follows u mayForce start t ∧ s.trail = t.trail := by
  have hMoves :
      Moves (Leads u mayForce) (runOpened u bound) :=
    carries_leads.moves_runOpened hStrategy bound
  have hEnds := hMoves start
  unfold runWithin at hRun
  rcases hOpened : runOpened u bound start with ⟨e | r, t⟩
  · have hLeads := hEnds.of_error hOpened
    rw [hOpened] at hRun
    cases hRun
    exact ⟨t, hLeads hApart, rfl⟩
  · have hLeads := hEnds.of_ok hOpened
    rw [hOpened] at hRun
    cases hRun
    exact ⟨t, hLeads hApart, rfl⟩

/-
  In a run whose strategy never forces, the check is asked
  about no contents twice, and never about contents that were
  accepted before, those at the start among them.  A trial is
  skipped only if its contents, file by file, are the ones of
  such an earlier moment.
-/
theorem asked_once
    {fs : List FilePair}
    {h : Host}
    {start s : Session σ τ}
    {bound : Nat}
    {result : Except Failure Report}
    (hApart : ∀ p ∈ targets fs, u.log.IsApart p)
    (hStrategy : u.strategy.NeverForces)
    (hOpen : openFiles u fs (initial u h) = (.ok (), start))
    (hRun : runWithin u bound start = (result, s)) :
    ∃ cs₀ newer,
      start.disk.Holds (targets fs) cs₀ ∧
      s.trail = newer ++ [.accepted cs₀] ∧
      (∀ later cs answer older,
        s.trail = later ++ .asked cs answer :: older →
          ¬ IsMet cs older) ∧
      ∀ later cs older, s.trail = later ++ .skipped cs :: older →
        IsMet cs older := by
  obtain ⟨t, w, cs₀, hStarts, rfl⟩ := starts_of_openFiles hOpen
  have hPaths : (t.afterOpening w cs₀).paths = targets fs :=
    hStarts.commits.paths_eq.trans hStarts.paths
  have hApart' : (t.afterOpening w cs₀).IsApart u := by
    unfold IsApart
    rw [hPaths]
    exact hApart
  obtain ⟨v, hFollows, hTrail⟩ :=
    exists_follows_of_runWithin (.inr hStrategy) hApart' hRun
  have hRemembered := hStarts.isRemembered.follows hFollows
  obtain ⟨newer, hSuffix⟩ := hFollows.trail_suffix
  have hFirst : (t.afterOpening w cs₀).trail = [.accepted cs₀] :=
    congrArg (List.cons (accepted cs₀)) hStarts.trail
  refine ⟨cs₀, newer, ?_, ?_, ?_, ?_⟩
  · rw [← hPaths]
    exact holds_afterAccepting hStarts.commits hStarts.holds
  · rw [hTrail, hSuffix, hFirst]
  · intro later cs answer older hSplit
    have hAll := hRemembered.unrepeated
    rw [← hTrail, hSplit] at hAll
    exact hAll.of_split
  · intro later cs older hSplit
    have hAll := hRemembered.unrepeated
    rw [← hTrail, hSplit] at hAll
    exact hAll.of_split

/- A run in which the check is asked two questions. -/
theorem asked_once_small :
    ∃ start s : Session Unit Unit,
      opened (smallSetup true .noProgress) [⟨"a", "b"⟩]
          [65, 10, 66] = (.ok (), start) ∧
        s = (runWithin (smallSetup true .noProgress) 1 start).2 ∧
        ∀ later cs answer older,
          s.trail = later ++ .asked cs answer :: older →
            ¬ IsMet cs older := by
  have hStrategy :
      (smallSetup true .noProgress).strategy.NeverForces :=
    fun _ _ _ => .done .noProgress
  have hOpened :
      (opened (smallSetup true .noProgress) [⟨"a", "b"⟩]
        [65, 10, 66]).1.toOption.isSome := by
    decide +kernel
  obtain ⟨_, hOpen⟩ := eq_of_isSome hOpened
  obtain ⟨_, _, _, _, hAsked, _⟩ :=
    asked_once (by decide +kernel) hStrategy hOpen
      (Prod.eta _).symm
  exact ⟨_, _, hOpen, rfl, hAsked⟩

/- The check is asked about what was accepted just before. -/
def asksAgain : List Moment → Bool
  | .asked cs _ :: .accepted cs' :: older =>
      cs = cs' || asksAgain (.accepted cs' :: older)
  | _ :: older => asksAgain older
  | [] => false

/- Where a moment is at which the check is asked again. -/
theorem exists_of_asksAgain
    {trail : List Moment}
    (hAgain : asksAgain trail) :
    ∃ later cs answer older,
      trail = later ++ .asked cs answer :: older ∧
        .accepted cs ∈ older := by
  have hCons :
      ∀ {m : Moment} {rest : List Moment},
        (∃ later cs answer older,
          rest = later ++ .asked cs answer :: older ∧
            .accepted cs ∈ older) →
        ∃ later cs answer older,
          m :: rest = later ++ .asked cs answer :: older ∧
            .accepted cs ∈ older := by
    rintro m rest ⟨later, cs, answer, older, rfl, hMem⟩
    exact ⟨m :: later, cs, answer, older, rfl, hMem⟩
  fun_induction asksAgain trail with
  | case1 cs answer cs' older ih =>
      rw [Bool.or_eq_true, decide_eq_true_eq] at hAgain
      rcases hAgain with rfl | hLater
      · exact ⟨[], cs, answer, _, rfl, List.mem_cons_self⟩
      · exact hCons (ih hLater)
  | case2 m older _ ih => exact hCons (ih hAgain)
  | case3 => cases hAgain

/-
  If an output is the file of the events of the run, what is
  accepted is not what the check was asked about, as its
  answer has been logged by then.  So the check is asked about
  it again.
-/
theorem exists_askedAgain :
    (smallSetup true .noProgress).strategy.NeverForces ∧
      ∃ start s later cs answer older,
        opened (smallSetup true .noProgress)
            [⟨"a", "log/events.ndjson"⟩] [65, 10, 66] =
          (.ok (), start) ∧
        s = (runWithin (smallSetup true .noProgress) 1 start).2 ∧
        s.trail = later ++ .asked cs answer :: older ∧
        .accepted cs ∈ older := by
  have hOpened :
      (opened (smallSetup true .noProgress)
        [⟨"a", "log/events.ndjson"⟩]
        [65, 10, 66]).1.toOption.isSome := by
    decide +kernel
  obtain ⟨_, hOpen⟩ := eq_of_isSome hOpened
  have hAgain :
      asksAgain
        (runWithin (smallSetup true .noProgress) 1
          (opened (smallSetup true .noProgress)
            [⟨"a", "log/events.ndjson"⟩]
            [65, 10, 66]).2).2.trail := by
    decide +kernel
  obtain ⟨later, cs, answer, older, hTrail, hMem⟩ :=
    exists_of_asksAgain hAgain
  exact ⟨fun _ _ _ => .done .noProgress, _, _, later, cs, answer,
    older, hOpen, rfl, hTrail, hMem⟩

end Session

end Whittle
