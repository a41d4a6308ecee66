import Whittle.Proofs.Session.Consistent

/-
  What a report says.

  Main statements:
    * `Session.reports_reduce`
    * `Session.reports_runOpened`

  The sizes of a report are those of the accepted contents at
  the start and at the end of the reduction.
-/

------------------------------------------------------------
-- Notes Keep What Has Been Accepted
------------------------------------------------------------

namespace Whittle

namespace Session

open Work

variable {σ τ : Type} {u : Setup σ τ}

theorem carries_keeps :
    CarriesNotes (σ := σ) (τ := τ) Keeps Keeps where
  host _ s := by
    apply ends_onFiles
    apply ends_onHost
    exact ends_trivial.mono (fun _ h _ => s.keeps_withHost h)
      (fun _ h _ => s.keeps_withHost h)
  remind _ _ := ⟨rfl, rfl, ⟨[], rfl, by simp⟩, fun _ hk => hk⟩
  remember _ _ := ⟨rfl, rfl, ⟨[], rfl, by simp⟩, fun _ hk => hk⟩

/- The accepted size stays the same while contents are kept. -/
theorem Keeps.totalSize_eq
    {s t : Session σ τ}
    (hKeeps : s.Keeps t) :
    t.totalSize = s.totalSize := by
  unfold totalSize Workspace.committedSize
  rw [hKeeps.snapshots_eq]

end Session

end Whittle

------------------------------------------------------------
-- Reports
------------------------------------------------------------

namespace Whittle

namespace Session

open Work

variable {σ τ : Type} {u : Setup σ τ}

/-
  A report speaks of the states at the start and at the end of
  a reduction, and of the passes between them.
-/
structure IsReported
    (u : Setup σ τ)
    (bound : Nat)
    (s : Session σ τ)
    (r : Report)
    (t : Session σ τ) : Prop where
  original : r.originalSize = s.totalSize
  final : r.finalSize = t.totalSize
  passes : ∃ v, passLoop u bound s = (.ok (r.passCount, r.isForced), v)

/- A report is made at the end of a reduction. -/
theorem reports_reduce
    (bound : Nat)
    (s : Session σ τ) :
    Ends (reduce u bound) s
      (fun r t => IsReported u bound s r t) (fun _ _ => True) := by
  have hReport :
      ∀ {passCount isForced v} (t : Session σ τ),
        passLoop u bound s = (.ok (passCount, isForced), v) →
        Ends
          (do
            let t ← get
            let r :=
              report u s.totalSize s.totalNodeCount passCount
                isForced t
            publish u r
            pure r)
          t
          (fun r t => IsReported u bound s r t)
          (fun _ _ => True) := by
    intro passCount isForced v t hPasses
    apply ends_bind
    apply ends_get
    apply ends_bind
    refine (carries_keeps.goes_publish _ t).mono ?_
      (fun _ _ _ => trivial)
    intro _ t' hKeeps
    exact ends_pure ⟨rfl, hKeeps.totalSize_eq.symm, v, hPasses⟩
  unfold reduce
  apply ends_bind
  apply ends_get
  apply ends_bind
  rcases hPasses : passLoop u bound s with ⟨e | ⟨count, isForced⟩, v⟩
  · unfold Ends
    rw [hPasses]
    trivial
  · apply ends_of_eq_ok hPasses
    cases isForced with
    | true => exact hReport v hPasses
    | false =>
        apply ends_bind
        refine ends_trivial.mono ?_ (fun _ _ h => h)
        exact fun _ t _ => hReport t hPasses

/- A reduction starts from what has been accepted by then. -/
theorem reports_runOpened
    (bound : Nat)
    (s : Session σ τ) :
    Ends (runOpened u bound) s
      (fun r t => ∃ v, s.Keeps v ∧ IsReported u bound v r t)
      (fun _ _ => True) := by
  apply ends_tryCatch
  apply ends_bind
  refine (carries_keeps.goes_startCheck s).mono ?_ ?_
  · intro _ v hKeeps
    refine (reports_reduce bound v).mono ?_ ?_
    · exact fun r t hReported => ⟨v, hKeeps, hReported⟩
    · intro e t _
      apply ends_bind
      exact ends_trivial.mono (fun _ _ _ => ends_throw trivial)
        (fun _ _ h => h)
  · intro e v _
    apply ends_bind
    exact ends_trivial.mono (fun _ _ _ => ends_throw trivial)
      (fun _ _ h => h)

end Session

end Whittle
