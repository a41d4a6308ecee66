import Whittle.Proofs.Session.Operation
import Whittle.Proofs.Session.Reporting
import Whittle.Proofs.Session.Soundness

/-
  Files become no longer, newlines at their ends apart.

  Key definitions include:
    * `AreNoLonger`
    * `Moment.IsShrunk`
    * `Session.IsShrunk`

  Main statements:
    * `Session.Operation.isShrunk`
    * `Session.accepted_areNoLonger`

  Dropping blank lines ends the last line of a file with a
  newline even where there was none.  So it is not the number
  of bytes that never grows, but the number of bytes that a
  file has when its last line is ended.
-/

------------------------------------------------------------
-- Contents That Are No Longer
------------------------------------------------------------

namespace Whittle

/- No file is longer than before when last lines are ended. -/
def AreNoLonger
    (cs cs' : List Bytes) : Prop :=
  List.Forall₂ (fun bs bs' => endedLength bs' ≤ endedLength bs)
    cs cs'

variable {cs cs' cs'' : List Bytes}

theorem areNoLonger_refl
    (cs : List Bytes) :
    AreNoLonger cs cs := by
  induction cs with
  | nil => exact .nil
  | cons bs rest ih => exact .cons (Nat.le_refl _) ih

theorem AreNoLonger.trans
    (hFirst : AreNoLonger cs cs')
    (hNext : AreNoLonger cs' cs'') :
    AreNoLonger cs cs'' := by
  unfold AreNoLonger at hFirst hNext ⊢
  induction hFirst generalizing cs'' with
  | nil =>
      cases hNext
      exact .nil
  | cons hLe _ ih =>
      cases hNext with
      | cons hLe' hRest =>
          exact .cons (Nat.le_trans hLe' hLe) (ih hRest)

/-
  Files that are no longer have no more bytes, but for one
  newline in each file that did not end with one.
-/
theorem AreNoLonger.total_le
    (hNoLonger : AreNoLonger cs cs') :
    total (cs'.map List.length) ≤
      total (cs.map List.length) + total (cs.map (unended 10)) :=
  calc
    weight List.length cs' ≤ weight endedLength cs' := by
      refine Nat.le_trans (Nat.le_add_right _ _)
        (Nat.le_of_eq (weight_add List.length (unended 10) cs').symm)
    _ ≤ weight endedLength cs := weight_le_of_forall₂ hNoLonger
    _ = weight List.length cs + weight (unended 10) cs :=
      weight_add List.length (unended 10) cs

end Whittle

------------------------------------------------------------
-- Moments
------------------------------------------------------------

namespace Whittle

namespace Moment

/-
  What is accepted is no longer than what was accepted last
  before.
-/
def IsShrunk : Moment → List Moment → Prop
  | accepted cs, older =>
      ∀ cs', older.findSome? accepted? = some cs' →
        AreNoLonger cs' cs
  | _, _ => True

/- Where nothing is accepted there is nothing to compare. -/
theorem isShrunk_of_quiet
    {m : Moment}
    (hQuiet : m.accepted? = none)
    (older : List Moment) :
    m.IsShrunk older := by
  cases m with
  | accepted cs => cases hQuiet
  | skipped => trivial
  | asked => trivial
  | forced => trivial

theorem AllAlong.quiet_append
    {newer older : List Moment}
    (hQuiet : ∀ m ∈ newer, m.accepted? = none)
    (hAll : AllAlong IsShrunk older) :
    AllAlong IsShrunk (newer ++ older) := by
  induction newer with
  | nil => exact hAll
  | cons m rest ih =>
      exact ⟨isShrunk_of_quiet (hQuiet m (by simp)) _,
        ih fun m' hm => hQuiet m' (List.mem_cons_of_mem m hm)⟩

end Moment

end Whittle

------------------------------------------------------------
-- The Invariant
------------------------------------------------------------

namespace Whittle

namespace Session

open Moment

variable {σ τ : Type} {u : Setup σ τ} {mayForce : Prop}

/-
  What holds between any two operations of a run in a charset
  that writes character by character.
    * `noLonger` : what is accepted now is no longer than what
      was accepted first.
    * `shrunk` : nothing that was accepted was longer than
      what had been accepted last before.
-/
structure IsShrunk
    (u : Setup σ τ)
    (first : List Bytes)
    (s : Session σ τ) : Prop where
  charwise : u.rules.charset.IsCharwise
  consistent : s.IsConsistent u
  noLonger : AreNoLonger first s.workspace.snapshots
  shrunk : AllAlong Moment.IsShrunk s.trail

/- Edits of what has been accepted are no longer. -/
theorem areNoLonger_of_edits
    {s : Session σ τ}
    {cs : List Bytes}
    (hCharwise : u.rules.charset.IsCharwise)
    (hAll : List.Forall₂ (Scratch.IsEdited u.rules)
      s.workspace.scratches cs) :
    AreNoLonger s.workspace.snapshots cs := by
  unfold AreNoLonger Workspace.snapshots
  rw [List.forall₂_map_left_iff]
  refine hAll.imp ?_
  rintro f bs' ⟨bs, hSnapshot, hEdits⟩
  rw [hSnapshot]
  exact hEdits.endedLength_le hCharwise

/- Accepting edits of what has been accepted shrinks it. -/
theorem IsShrunk.takes
    {first : List Bytes}
    {s t : Session σ τ}
    {m : Moment}
    {cs : List Bytes}
    (hShrunk : s.IsShrunk u first)
    (hAll : List.Forall₂ (Scratch.IsEdited u.rules)
      s.workspace.scratches cs)
    (hTakes : s.Takes u m cs t) :
    t.IsShrunk u first := by
  have hNoLonger := areNoLonger_of_edits hShrunk.charwise hAll
  refine ⟨hShrunk.charwise, hTakes.consistent, ?_, ?_⟩
  · rw [hTakes.snapshots]
    exact hShrunk.noLonger.trans hNoLonger
  · rw [hTakes.trail]
    refine ⟨?_, isShrunk_of_quiet hTakes.quiet _, hShrunk.shrunk⟩
    intro cs' hLast
    have hBefore : s.trail.findSome? accepted? = some cs' := by
      rw [List.findSome?_cons, hTakes.quiet] at hLast
      exact hLast
    have hSame : cs' = s.workspace.snapshots :=
      Option.some.inj (hBefore.symm.trans hShrunk.consistent.accepted)
    rw [hSame]
    exact hNoLonger

/- Every operation keeps the invariant. -/
theorem Operation.isShrunk
    {first : List Bytes}
    {s t : Session σ τ}
    (hOperation : Operation u mayForce s t)
    (hShrunk : s.IsShrunk u first) :
    t.IsShrunk u first := by
  cases hOperation.changes hShrunk.consistent with
  | keep hKeeps =>
      refine ⟨hShrunk.charwise,
        hKeeps.isConsistent hShrunk.consistent, ?_, ?_⟩
      · rw [hKeeps.snapshots_eq]
        exact hShrunk.noLonger
      · obtain ⟨newer, hTrail, hQuiet⟩ := hKeeps.trail
        rw [hTrail]
        exact hShrunk.shrunk.quiet_append hQuiet
  | accept cs hAll _ hTakes => exact hShrunk.takes hAll hTakes
  | force cs _ hAll hTakes => exact hShrunk.takes hAll hTakes

/- Any number of operations keep the invariant. -/
theorem Operates.isShrunk
    {first : List Bytes}
    {s t : Session σ τ}
    (hOperates : Operates u mayForce s t)
    (hShrunk : s.IsShrunk u first) :
    t.IsShrunk u first := by
  induction hOperates with
  | refl => exact hShrunk
  | tail _ hOperation ih => exact hOperation.isShrunk ih

/- The invariant holds when files have been opened. -/
theorem Starts.isShrunk
    {fs : List FilePair}
    {s : Session σ τ}
    {w : Workspace}
    {cs : List Bytes}
    (hStarts : Starts u fs s w cs)
    (hCharwise : u.rules.charset.IsCharwise)
    (hApart : ∀ p ∈ targets fs, u.log.IsApart p) :
    (s.afterOpening w cs).IsShrunk u cs := by
  have hTrail : (s.afterOpening w cs).trail = [accepted cs] :=
    congrArg (List.cons (accepted cs)) hStarts.trail
  refine ⟨hCharwise, hStarts.isConsistent hApart, ?_, ?_⟩
  · rw [hStarts.snapshots_eq]
    exact areNoLonger_refl cs
  · rw [hTrail]
    exact ⟨fun cs' hNone => (by cases hNone), trivial⟩

end Session

end Whittle

------------------------------------------------------------
-- Whole Runs
------------------------------------------------------------

namespace Whittle

namespace Session

open Moment Work

variable {σ τ : Type} {u : Setup σ τ}

/-
  In any run, whatever the strategy does and the check says,
  no file that is accepted is longer than what was accepted of
  it last before, when last lines are ended with a newline.
  So a report says of no run that it has made the files larger
  by more than a newline for each input that lacked one.  The
  charset has to write character by character, and the log must
  not be written to the files.
-/
theorem accepted_areNoLonger
    {fs : List FilePair}
    {h : Host}
    {start s : Session σ τ}
    {bound : Nat}
    {result : Except Failure Report}
    (hCharwise : u.rules.charset.IsCharwise)
    (hApart : ∀ p ∈ targets fs, u.log.IsApart p)
    (hOpen : openFiles u fs (initial u h) = (.ok (), start))
    (hRun : runWithin u bound start = (result, s)) :
    ∃ cs₀,
      start.disk.Holds (targets fs) cs₀ ∧
      start.trail = [.accepted cs₀] ∧
      (∀ later cs older cs',
        s.trail = later ++ .accepted cs :: older →
          older.findSome? accepted? = some cs' →
            AreNoLonger cs' cs) ∧
      ∀ r, result = .ok r →
        r.originalSize = total (cs₀.map List.length) ∧
          r.finalSize ≤
            r.originalSize + total (cs₀.map (unended 10)) := by
  obtain ⟨t, w, cs₀, hStarts, rfl⟩ := starts_of_openFiles hOpen
  have hPaths : (t.afterOpening w cs₀).paths = targets fs :=
    hStarts.commits.paths_eq.trans hStarts.paths
  have hTrail : (t.afterOpening w cs₀).trail = [accepted cs₀] :=
    congrArg (List.cons (accepted cs₀)) hStarts.trail
  have hShrunk := hStarts.isShrunk hCharwise hApart
  have hOperates : Moves (Operates u True) (runOpened u bound) :=
    carries_operates.moves_runOpened (.inl trivial) bound
  unfold runWithin at hRun
  rcases hOpened : runOpened u bound (t.afterOpening w cs₀) with
    ⟨ending, v⟩
  rw [hOpened] at hRun
  cases hRun
  have hEnd : v.IsShrunk u cs₀ := by
    cases result with
    | error e =>
        exact ((hOperates _).of_error hOpened).isShrunk hShrunk
    | ok r =>
        exact ((hOperates _).of_ok hOpened).isShrunk hShrunk
  refine ⟨cs₀, ?_, hTrail, ?_, ?_⟩
  · rw [← hPaths]
    exact holds_afterAccepting hStarts.commits hStarts.holds
  · intro later cs older cs' hSplit hLast
    have hAll := hEnd.shrunk
    rw [show v.trail = _ from hSplit] at hAll
    exact hAll.of_split cs' hLast
  · rintro r rfl
    obtain ⟨start, hKeeps, hReported⟩ :=
      (reports_runOpened bound _).of_ok hOpened
    have hOriginal : r.originalSize = total (cs₀.map List.length) := by
      rw [hReported.original, hKeeps.totalSize_eq]
      exact congrArg (fun cs => total (cs.map List.length))
        hStarts.snapshots_eq
    refine ⟨hOriginal, ?_⟩
    rw [hReported.final, hOriginal]
    exact hEnd.noLonger.total_le

/- A run that ends the last line of its only file. -/
theorem accepted_areNoLonger_small :
    ∃ start r s,
      opened (smallSetup true .noProgress) [⟨"a", "b"⟩]
          [10, 65] = (.ok (), start) ∧
        runWithin (smallSetup true .noProgress) 1 start =
          (.ok r, s) ∧
        r.finalSize ≤ r.originalSize + 1 := by
  have hOpened :
      (opened (smallSetup true .noProgress) [⟨"a", "b"⟩]
        [10, 65]).1.toOption.isSome := by
    decide +kernel
  have hRan :
      (runWithin (smallSetup true .noProgress) 1
        (opened (smallSetup true .noProgress) [⟨"a", "b"⟩]
          [10, 65]).2).1.toOption.isSome := by
    decide +kernel
  obtain ⟨_, hOpen⟩ := eq_of_isSome hOpened
  obtain ⟨r, hRun⟩ := eq_of_isSome hRan
  obtain ⟨cs₀, hHolds, _, _, hSize⟩ :=
    accepted_areNoLonger
      (Charset.isCharwise_known Codec.isCharwise_utf8)
      (by decide +kernel) hOpen hRun
  refine ⟨_, r, _, hOpen, hRun, ?_⟩
  have hLength : cs₀.length = 1 := hHolds.length_eq.symm
  obtain ⟨bs, rfl⟩ := List.length_eq_one_iff.mp hLength
  obtain ⟨_, hLe⟩ := hSize r rfl
  have hOne : unended (10 : UInt8) bs ≤ 1 := unended_le_one
  simp only [List.map_cons, List.map_nil, total] at hLe
  omega

end Session

end Whittle
