import Whittle.Strategy.Greedy

/-
  What the greedy strategy offers in a scan.

  Key definitions include:
    * `Greedy.offers`
    * `Greedy.memoAfter`
    * `Greedy.lastOffers`

  Main statements:
    * `Greedy.offers_nodes`
    * `Greedy.scan_drop`
    * `Greedy.scan_passedOver`

  The variants of a node depend on the closures that have been
  worked out by then, so what a complete scan offers depends
  on where the scan before it started.
-/

------------------------------------------------------------
-- Offers
------------------------------------------------------------

namespace Whittle

namespace Greedy

/-
  The variants that are offered at each node if none of them
  makes a difference.
-/
def offers
    (g : Dependents)
    (memo : Memo) :
    List (Tree × Nat) → List ((Tree × Nat) × List NodeSet)
  | [] => []
  | (t, i) :: rest =>
      ((t, i), (variantsAt g memo t i).1) ::
        offers g (variantsAt g memo t i).2 rest

/- What has been worked out after all these offers. -/
def memoAfter
    (g : Dependents)
    (memo : Memo) : List (Tree × Nat) → Memo
  | [] => memo
  | (t, i) :: rest => memoAfter g (variantsAt g memo t i).2 rest

/-
  The offers of the complete scan of a pass in which nothing
  makes a difference.  The pass starts with a scan near the
  node of the last success, which offers the same variants of
  fewer nodes.
-/
def lastOffers
    (m : Memory)
    (p : Provider)
    (ts : List Tree) : List ((Tree × Nat) × List NodeSet) :=
  let g := Dependents.ofTrees p ts
  let nodes := candidates ts
  offers g (memoAfter g ∅ (nodes.drop (m.position - 1))) nodes

theorem offers_nodes
    (g : Dependents)
    (memo : Memo)
    (nodes : List (Tree × Nat)) :
    (offers g memo nodes).map Prod.fst = nodes := by
  induction nodes generalizing memo with
  | nil => rfl
  | cons node rest ih =>
      exact congrArg (node :: ·) (ih _)

/- The complete scan of a pass makes an offer at every node. -/
theorem lastOffers_nodes
    (m : Memory)
    (p : Provider)
    (ts : List Tree) :
    (lastOffers m p ts).map Prod.fst = candidates ts :=
  offers_nodes _ _ _

/-
  Where a scan has started does not matter once it is after all
  nodes.
-/
theorem lastOffers_min
    (m : Memory)
    (p : Provider)
    (ts : List Tree) :
    lastOffers m p ts =
      lastOffers
        ⟨min m.position ((candidates ts).length + 1), 0, 0⟩
        p ts := by
  unfold lastOffers
  dsimp only
  rcases Nat.le_total m.position ((candidates ts).length + 1)
    with hLe | hGe
  · rw [Nat.min_eq_left hLe]
  · rw [Nat.min_eq_right hGe, List.drop_eq_nil_of_le (by omega),
      List.drop_eq_nil_of_le (by omega)]

/- The memory after some more nodes. -/
def Memory.after
    (m : Memory)
    (k : Nat) : Memory :=
  ⟨m.position + k, m.countdown - k, m.restarts⟩

@[simp]
theorem Memory.after_zero
    (m : Memory) :
    m.after 0 = m := by
  unfold after
  simp

/- One more node comes before the others. -/
theorem Memory.after_advanced
    (m : Memory)
    (k : Nat) :
    m.advanced.after k = m.after (k + 1) := by
  unfold Memory.advanced Memory.after
  dsimp only
  congr 1 <;> omega

/- A scan passes over nodes while it counts down. -/
theorem scan_drop
    (g : Dependents)
    (otherwise : Memory → Memo → Plan Memory)
    (memo : Memo)
    {nodes : List (Tree × Nat)}
    {m : Memory}
    {k : Nat}
    (hCountdown : k ≤ (m.countdown - 1).toNat)
    (hLength : k ≤ nodes.length) :
    scan g otherwise m memo nodes =
      scan g otherwise (m.after k) memo (nodes.drop k) := by
  induction k generalizing m nodes with
  | zero => rw [m.after_zero, List.drop_zero]
  | succ k ih =>
      cases nodes with
      | nil => cases hLength
      | cons node rest =>
          obtain ⟨t, i⟩ := node
          have hNext : m.advanced.countdown = m.countdown - 1 := rfl
          have hSkip : ¬ m.advanced.countdown ≤ 0 := by omega
          rw [scan]
          dsimp only
          rw [if_neg hSkip,
            ih (by omega) (Nat.le_of_succ_le_succ hLength),
            m.after_advanced, List.drop_succ_cons]

/-
  A scan passes over as many nodes as it counts down, and
  looks at all nodes after them.
-/
theorem scan_passedOver
    (g : Dependents)
    (otherwise : Memory → Memo → Plan Memory)
    (memo : Memo)
    (nodes : List (Tree × Nat))
    {m : Memory}
    {k : Nat}
    (hCountdown : (m.countdown - 1).toNat = k) :
    ∃ m', (m'.countdown ≤ 1 ∨ nodes.drop k = []) ∧
      scan g otherwise m memo nodes =
        scan g otherwise m' memo (nodes.drop k) := by
  rcases Nat.le_total k nodes.length with hLe | hGe
  · refine ⟨m.after k, .inl ?_, ?_⟩
    · unfold Memory.after
      dsimp only
      omega
    · exact scan_drop g otherwise memo (by omega) hLe
  · have hNone : nodes.drop k = [] :=
      List.drop_eq_nil_of_le hGe
    refine ⟨m.after nodes.length, .inr hNone, ?_⟩
    rw [scan_drop g otherwise memo (by omega) Nat.le.refl,
      List.drop_length, hNone]

end Greedy

end Whittle
