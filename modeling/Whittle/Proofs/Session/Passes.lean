import Whittle.Proofs.Session.Carrying

/-
  The passes of a reduction without a bound to their number.

  Key definitions include:
    * `Work.Reaches`
    * `Session.GoesOn`
    * `Session.strategyPasses`
    * `Session.PassesEnd`

  Main statements:
    * `Session.strategyPasses_eq`
    * `Session.passesEnd_of_ok`
    * `Session.reaches_passes`

  The bound of `passes` makes it a structural recursion.  What
  the passes are apart from that is said by `PassesEnd`, which
  only holds of passes that come to an end.
-/

------------------------------------------------------------
-- Reaching A Part Of Work
------------------------------------------------------------

namespace Whittle

namespace Work

variable {α β ι ρ : Type} {R : ρ → ρ → Prop}

/-
  Several kinds of work that differ in their last part only:
  from a state they all fail in the same way, or they all come
  to their last part in one state.
-/
def Reaches
    (s : ρ)
    (works : ι → Work ρ β)
    (Q : ρ → Prop)
    (lasts : ι → Work ρ β) : Prop :=
  (∃ e t, ∀ i, works i s = (.error e, t)) ∨
    ∃ t, Q t ∧ ∀ i, works i s = lasts i t

theorem reaches_here
    {s : ρ}
    {lasts : ι → Work ρ β}
    {Q : ρ → Prop}
    (hQ : Q s) :
    Reaches s lasts Q lasts :=
  .inr ⟨s, hQ, fun _ => rfl⟩

theorem reaches_bind
    {work : Work ρ α}
    {lasts : ι → Work ρ β}
    {nexts : ι → α → Work ρ β}
    {s : ρ}
    {Q : ρ → Prop}
    (hEnds :
      Ends work s
        (fun a t => Reaches t (fun i => nexts i a) Q lasts)
        (fun _ _ => True)) :
    Reaches s (fun i => work >>= nexts i) Q lasts := by
  rcases hWork : work s with ⟨e | a, t⟩
  · exact .inl ⟨e, t, fun _ => bind_of_error hWork⟩
  · rcases hEnds.of_ok hWork with ⟨e, v, hFails⟩ | ⟨v, hQ, hLast⟩
    · exact .inl
        ⟨e, v, fun i => (bind_of_ok hWork).trans (hFails i)⟩
    · exact .inr
        ⟨v, hQ, fun i => (bind_of_ok hWork).trans (hLast i)⟩

end Work

end Whittle

------------------------------------------------------------
-- Loops Of Passes
------------------------------------------------------------

namespace Whittle

namespace Session

open Work

variable {σ τ : Type} {u : Setup σ τ}
variable {size nodes before fuel : Nat}

/- After the pass of a number there is another one. -/
def GoesOn
    (number : Nat)
    (outcome : Outcome) : Prop :=
  outcome ≠ .forcedStop ∧
    (isCleanup number = true ∨ outcome = .progressed)

instance (number : Nat) (outcome : Outcome) :
    Decidable (GoesOn number outcome) :=
  inferInstanceAs (Decidable (_ ∧ _))

/-
  How many of some passes are passes of the strategy and not
  cleanups.  `before` passes have been made before them.
-/
def strategyPasses
    (before fuel : Nat) : Nat :=
  (List.range' (before + 1) fuel).countP fun number =>
    !isCleanup number

/-
  Passes come to an end, after some passes of the strategy,
  with a result and in a state.  This is what the passes are
  without any bound to their number.
    * `fails` : the next pass fails.
    * `stops` : the next pass is the last one.
    * `goesOn` : there are more passes after the next one.
-/
inductive PassesEnd
    (u : Setup σ τ)
    (size nodes : Nat) :
    (before : Nat) → Session σ τ → Nat →
      Except Failure (Nat × Bool) → Session σ τ → Prop
| fails {before s e t}
    (hTurn : turn u size nodes (before + 1) s = (.error e, t)) :
    PassesEnd u size nodes before s (strategyPasses before 1)
      (.error e) t
| stops {before s outcome t}
    (hTurn : turn u size nodes (before + 1) s = (.ok outcome, t))
    (hLast : ¬ GoesOn (before + 1) outcome) :
    PassesEnd u size nodes before s (strategyPasses before 1)
      (.ok (before + 1, outcome = .forcedStop)) t
| goesOn {before s outcome v n result t}
    (hTurn : turn u size nodes (before + 1) s = (.ok outcome, v))
    (hMore : GoesOn (before + 1) outcome)
    (hRest : PassesEnd u size nodes (before + 1) v n result t) :
    PassesEnd u size nodes before s
      (strategyPasses before 1 + n) result t

theorem strategyPasses_one
    (before : Nat) :
    strategyPasses before 1 =
      if isCleanup (before + 1) then 0 else 1 := by
  unfold strategyPasses
  cases hCleanup : isCleanup (before + 1) <;>
    simp [hCleanup]

/- It is not more than one pass of the strategy. -/
theorem strategyPasses_one_le
    (before : Nat) :
    strategyPasses before 1 ≤ 1 :=
  List.countP_le_length

theorem strategyPasses_succ
    (before fuel : Nat) :
    strategyPasses before (fuel + 1) =
      strategyPasses before 1 + strategyPasses (before + 1) fuel := by
  unfold strategyPasses
  rw [List.range'_succ, List.countP_cons, List.range'_one,
    List.countP_singleton]
  exact Nat.add_comm _ _

/- All passes but every tenth one are passes of the strategy. -/
theorem strategyPasses_eq
    (before fuel : Nat) :
    strategyPasses before fuel + (before + fuel) / cleanupPeriod =
      fuel + before / cleanupPeriod := by
  induction fuel generalizing before with
  | zero => simp [strategyPasses]
  | succ fuel ih =>
      have hRest := ih (before + 1)
      rw [strategyPasses_succ, strategyPasses_one]
      unfold isCleanup cleanupPeriod at *
      simp only [beq_iff_eq] at hRest ⊢
      split <;> omega

/- What becomes of passes is what becomes of the next one. -/
theorem passes_eq_of_ok
    {s v : Session σ τ}
    {outcome : Outcome}
    (hTurn : turn u size nodes (before + 1) s = (.ok outcome, v)) :
    passes u size nodes (fuel + 1) before s =
      if GoesOn (before + 1) outcome then
        passes u size nodes fuel (before + 1) v
      else
        (.ok (before + 1, outcome = .forcedStop), v) := by
  rw [passes, bind_of_ok hTurn]
  by_cases hForced : outcome = .forcedStop
  · subst hForced
    rw [if_pos rfl, if_neg (fun hMore => hMore.1 rfl)]
    rfl
  · rw [if_neg hForced]
    by_cases hNumber :
      isCleanup (before + 1) = true ∨ outcome = .progressed
    · have hMore : GoesOn (before + 1) outcome :=
        ⟨hForced, hNumber⟩
      rw [if_pos (by simpa using hNumber), if_pos hMore]
    · have hLast : ¬ GoesOn (before + 1) outcome :=
        fun hMore => hNumber hMore.2
      rw [if_neg (by simpa using hNumber), if_neg hLast]
      simp only [hForced, decide_false]
      rfl

/- Passes that give a result have come to an end. -/
theorem passesEnd_of_ok
    {s t : Session σ τ}
    {result : Nat × Bool}
    (hPasses : passes u size nodes fuel before s = (.ok result, t)) :
    ∃ n, PassesEnd u size nodes before s n (.ok result) t := by
  induction fuel generalizing before s with
  | zero => cases hPasses
  | succ fuel ih =>
      rcases hTurn : turn u size nodes (before + 1) s with
        ⟨e | outcome, v⟩
      · unfold passes at hPasses
        rw [bind_of_error hTurn] at hPasses
        cases hPasses
      · rw [passes_eq_of_ok hTurn] at hPasses
        split at hPasses
        · rename_i hMore
          obtain ⟨n, hRest⟩ := ih hPasses
          exact ⟨_, .goesOn hTurn hMore hRest⟩
        · rename_i hLast
          cases hPasses
          exact ⟨_, .stops hTurn hLast⟩

theorem PassesEnd.unique
    {s t t' : Session σ τ}
    {n n' : Nat}
    {result result' : Except Failure (Nat × Bool)}
    (hEnd : PassesEnd u size nodes before s n result t)
    (hEnd' : PassesEnd u size nodes before s n' result' t') :
    (result, t) = (result', t') := by
  induction hEnd generalizing n' with
  | fails hTurn =>
      cases hEnd' with
      | fails hTurn' =>
          cases hTurn.symm.trans hTurn'
          rfl
      | stops hTurn' => cases hTurn.symm.trans hTurn'
      | goesOn hTurn' => cases hTurn.symm.trans hTurn'
  | stops hTurn hLast =>
      cases hEnd' with
      | fails hTurn' => cases hTurn.symm.trans hTurn'
      | stops hTurn' =>
          cases hTurn.symm.trans hTurn'
          rfl
      | goesOn hTurn' hMore =>
          cases hTurn.symm.trans hTurn'
          exact absurd hMore hLast
  | goesOn hTurn hMore _ ih =>
      cases hEnd' with
      | fails hTurn' => cases hTurn.symm.trans hTurn'
      | stops hTurn' hLast =>
          cases hTurn.symm.trans hTurn'
          exact absurd hMore hLast
      | goesOn hTurn' _ hRest =>
          cases hTurn.symm.trans hTurn'
          exact ih hRest

/- The result of passes says how many of them there were. -/
theorem PassesEnd.eq_strategyPasses
    {s t : Session σ τ}
    {n passCount : Nat}
    {isForced : Bool}
    (hEnd :
      PassesEnd u size nodes before s n
        (.ok (passCount, isForced)) t) :
    ∃ fuel, passCount = before + fuel ∧
      n = strategyPasses before fuel := by
  generalize hResult :
    (Except.ok (passCount, isForced) : Except Failure _) =
      result at hEnd
  induction hEnd with
  | fails => cases hResult
  | stops =>
      cases hResult
      exact ⟨1, rfl, rfl⟩
  | @goesOn before _ _ _ _ _ _ _ _ _ ih =>
      obtain ⟨fuel, hCount, hRest⟩ := ih hResult
      refine ⟨fuel + 1, by omega, ?_⟩
      rw [strategyPasses_succ before fuel, hRest]

end Session

end Whittle

------------------------------------------------------------
-- Before The Passes
------------------------------------------------------------

namespace Whittle

namespace Session

open Work

variable {σ τ : Type} {u : Setup σ τ} {mayForce : Prop}
variable {R E : Session σ τ → Session σ τ → Prop}
variable [Std.Refl R] [Std.Refl E] [Trans R R R] [Trans R E E]

omit [Std.Refl E] in
theorem CarriesPasses.reaches_passes
    (hCarries : CarriesPasses u mayForce R E)
    (s : Session σ τ) :
    Reaches s (passLoop u) (R s)
      (fun bound =>
        passes u s.totalSize s.totalNodeCount bound 0) := by
  unfold passLoop
  apply reaches_bind
  apply ends_get
  apply reaches_bind
  refine (hCarries.host (Host.moves_print _) s).mono ?_
    (fun _ _ _ => trivial)
  intro _ t₁ h₁
  apply reaches_bind
  refine (hCarries.goes_logEvent _ _ t₁).mono ?_
    (fun _ _ _ => trivial)
  intro _ t₂ h₂
  apply reaches_bind
  refine (hCarries.cleanup false t₂).mono ?_
    (fun _ _ _ => trivial)
  intro _ t₃ h₃
  apply reaches_bind
  refine (hCarries.goes_printProgress _ _ _ t₃).mono ?_
    (fun _ _ _ => trivial)
  intro _ t₄ h₄
  exact reaches_here
    (Trans.trans h₁ (Trans.trans h₂ (Trans.trans h₃ h₄)))

end Session

end Whittle
