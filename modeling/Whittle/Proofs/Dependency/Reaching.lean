import Mathlib.Logic.Relation
import Whittle.Proofs.Dependency.Search

/-
  Which nodes are found to go together with a node.

  Key definitions include:
    * `Dependents.Reaches`
    * `Dependents.IsAcyclicFrom`
    * `Dependents.IsLawful`
    * `Dependents.memoAfter`

  Main statements:
    * `Dependents.Visits.sound`
    * `Dependents.Visits.enters`
    * `Dependents.Visits.exact`
    * `Dependents.closure_reaches`

  A node that is open counts as known with nothing found, so
  what is kept for a node on a cycle may be incomplete.  It is
  complete where no cycle can be reached: every open node
  reaches the node that is being visited, so one that is
  visited again lies on a cycle.
-/

------------------------------------------------------------
-- Reaching Nodes
------------------------------------------------------------

namespace Whittle

namespace Dependents

variable {g : Dependents} {m n : NodeId}

/- A node depends on another one directly. -/
def Leads
    (g : Dependents)
    (n m : NodeId) : Prop :=
  m ∈ g.of n

/- A node is another one or depends on it. -/
def Reaches
    (g : Dependents) : NodeId → NodeId → Prop :=
  Relation.ReflTransGen g.Leads

/- A node depends on itself. -/
def IsOnCycle
    (g : Dependents)
    (n : NodeId) : Prop :=
  Relation.TransGen g.Leads n n

/- No node that can be reached lies on a cycle. -/
def IsAcyclicFrom
    (g : Dependents)
    (n : NodeId) : Prop :=
  ∀ m, g.Reaches n m → ¬ g.IsOnCycle m

/- No cycle is reached by going on. -/
theorem IsAcyclicFrom.of_reaches
    (hAcyclic : g.IsAcyclicFrom n)
    (hReaches : g.Reaches n m) :
    g.IsAcyclicFrom m :=
  fun k hk => hAcyclic k (hReaches.trans hk)

/- Where each dependent ranks higher there is no cycle. -/
theorem isAcyclicFrom_of_rank
    (rank : NodeId → Nat)
    (hRank : ∀ n m, g.Leads n m → rank n < rank m)
    (n : NodeId) :
    g.IsAcyclicFrom n := by
  intro m _ hCycle
  have hHigher :
      ∀ k, Relation.TransGen g.Leads m k → rank m < rank k := by
    intro k hPath
    induction hPath with
    | single hStep => exact hRank _ _ hStep
    | tail _ hStep ih => exact Nat.lt_trans ih (hRank _ _ hStep)
  exact Nat.lt_irrefl _ (hHigher m hCycle)

end Dependents

end Whittle

------------------------------------------------------------
-- Nothing Else Is Found
------------------------------------------------------------

namespace Whittle

namespace Dependents

variable {g : Dependents} {memo memo' : Memo} {m n : NodeId}
variable {ns : List NodeId} {found s : NodeSet}

/- Only nodes that are reached are known to be. -/
def IsSound
    (g : Dependents)
    (memo : Memo) : Prop :=
  ∀ (m : NodeId) (s : NodeSet),
    memo[m]? = some s → ∀ k ∈ s, g.Reaches m k

/- An entry of a memo that is added to. -/
theorem insert_cases
    (hEntry : (memo.insert n found)[m]? = some s) :
    n = m ∧ found = s ∨ n ≠ m ∧ memo[m]? = some s := by
  by_cases hSame : n = m
  · subst hSame
    rw [Std.TreeMap.getElem?_insert_self] at hEntry
    exact .inl ⟨rfl, Option.some.inj hEntry⟩
  · rw [getElem?_insert_of_ne _ _ hSame] at hEntry
    exact .inr ⟨hSame, hEntry⟩

/- Adding what a node reaches keeps a memo sound. -/
theorem IsSound.insert
    (hSound : g.IsSound memo)
    (hFound : ∀ k ∈ found, g.Reaches n k) :
    g.IsSound (memo.insert n found) := by
  intro m s hEntry
  rcases insert_cases hEntry with ⟨rfl, rfl⟩ | ⟨_, hOld⟩
  · exact hFound
  · exact hSound m s hOld

/- Only nodes that are reached are found. -/
theorem Visits.sound
    (hVisits : g.Visits memo ns found memo')
    (hSound : g.IsSound memo) :
    (∀ k ∈ found, ∃ n ∈ ns, g.Reaches n k) ∧ g.IsSound memo' := by
  induction hVisits with
  | nil => exact ⟨by simp, hSound⟩
  | @known memo _ n rest found more hKnown _ ih =>
      obtain ⟨hMore, hSound'⟩ := ih hSound
      refine ⟨?_, hSound'⟩
      intro k hk
      rcases List.mem_append.mp hk with hHere | hLater
      · exact ⟨n, by simp, hSound n found hKnown k hHere⟩
      · obtain ⟨m, hm, hReaches⟩ := hMore k hLater
        exact ⟨m, List.mem_cons_of_mem n hm, hReaches⟩
  | @fresh memo inner _ n rest below more _ _ _ ihBelow ihRest =>
      obtain ⟨hBelow, hInner⟩ := ihBelow (hSound.insert (by simp))
      have hFound :
          ∀ k ∈ NodeSet.ofList (n :: below), g.Reaches n k := by
        intro k hk
        rw [NodeSet.mem_ofList, List.mem_cons] at hk
        rcases hk with rfl | hk
        · exact .refl
        · obtain ⟨d, hd, hReaches⟩ := hBelow k hk
          exact .head hd hReaches
      obtain ⟨hMore, hSound'⟩ := ihRest (hInner.insert hFound)
      refine ⟨?_, hSound'⟩
      intro k hk
      rcases List.mem_append.mp hk with hHere | hLater
      · exact ⟨n, by simp, hFound k hHere⟩
      · obtain ⟨m, hm, hReaches⟩ := hMore k hLater
        exact ⟨m, List.mem_cons_of_mem n hm, hReaches⟩

end Dependents

end Whittle

------------------------------------------------------------
-- What Is Entered
------------------------------------------------------------

namespace Whittle

namespace Dependents

variable {g : Dependents} {memo memo' : Memo} {m n : NodeId}
variable {ns : List NodeId} {found s : NodeSet}

/- Something is known of a node. -/
def IsKnown
    (memo : Memo)
    (n : NodeId) : Prop :=
  ∃ s, memo[n]? = some s

/- What is known stays so when a memo is added to. -/
theorem IsKnown.insert
    (hKnown : IsKnown memo m)
    (n : NodeId)
    (found : NodeSet) :
    IsKnown (memo.insert n found) m := by
  by_cases hSame : n = m
  · subst hSame
    exact ⟨found, Std.TreeMap.getElem?_insert_self⟩
  · obtain ⟨s, hs⟩ := hKnown
    exact ⟨s, (getElem?_insert_of_ne _ _ hSame).trans hs⟩

/- What is known stays so when nodes are visited. -/
theorem Visits.isKnown
    (hVisits : g.Visits memo ns found memo')
    (hKnown : IsKnown memo m) :
    IsKnown memo' m := by
  obtain ⟨s, hs⟩ := hKnown
  exact ⟨s, hVisits.keeps hs⟩

theorem Visits.isKnown_of_mem
    (hVisits : g.Visits memo ns found memo') :
    ∀ n ∈ ns, IsKnown memo' n := by
  induction hVisits with
  | nil => simp
  | known hKnown hRest ih =>
      refine List.forall_mem_cons.mpr ⟨?_, ih⟩
      exact hRest.isKnown ⟨_, hKnown⟩
  | fresh _ _ hRest _ ihRest =>
      refine List.forall_mem_cons.mpr ⟨?_, ihRest⟩
      exact hRest.isKnown ⟨_, Std.TreeMap.getElem?_insert_self⟩

/-
  A node that is entered has itself among what is kept for it
  and is found, and its dependents are known.
-/
theorem Visits.enters
    (hVisits : g.Visits memo ns found memo')
    (hEntry : memo'[m]? = some s)
    (hNew : ¬ IsKnown memo m) :
    m ∈ s ∧ m ∈ found ∧ ∀ d ∈ g.of m, IsKnown memo' d := by
  induction hVisits with
  | nil => exact absurd ⟨s, hEntry⟩ hNew
  | known _ _ ih =>
      obtain ⟨hOwn, hFound, hBelow⟩ := ih hEntry hNew
      exact ⟨hOwn, List.mem_append_right _ hFound, hBelow⟩
  | @fresh memo inner memo' n rest below more hNone hBelow hRest
      ihBelow ihRest =>
      by_cases hLater :
          IsKnown (inner.insert n (.ofList (n :: below))) m
      · -- it has been entered by the time that `n` is left
        obtain ⟨s', hs'⟩ := hLater
        have hSame := hRest.keeps hs'
        rw [hEntry] at hSame
        obtain rfl := Option.some.inj hSame
        rcases insert_cases hs' with ⟨rfl, rfl⟩ | ⟨hNe, hInner⟩
        · have hOwn : n ∈ NodeSet.ofList (n :: below) := by
            rw [NodeSet.mem_ofList]
            exact List.mem_cons_self
          refine ⟨hOwn, List.mem_append_left _ hOwn, ?_⟩
          intro d hd
          exact hRest.isKnown
            ((hBelow.isKnown_of_mem d hd).insert _ _)
        · obtain ⟨hOwn, hFound, hDeep⟩ :=
            ihBelow hInner (fun ⟨t, ht⟩ =>
              hNew ⟨t, (getElem?_insert_of_ne _ _ hNe).symm.trans ht⟩)
          refine ⟨hOwn, List.mem_append_left _ ?_, ?_⟩
          · rw [NodeSet.mem_ofList]
            exact List.mem_cons_of_mem n hFound
          · exact fun d hd =>
              hRest.isKnown ((hDeep d hd).insert _ _)
      · obtain ⟨hOwn, hFound, hDeep⟩ := ihRest hEntry hLater
        exact ⟨hOwn, List.mem_append_right _ hFound, hDeep⟩

/- From nothing known, all that is reached is found. -/
theorem Visits.complete
    (hVisits : g.Visits ∅ [n] found memo')
    (hReaches : g.Reaches n m) :
    m ∈ found := by
  have hNone : ∀ k : NodeId, ¬ IsKnown ∅ k := by
    rintro k ⟨s, hs⟩
    rw [Std.TreeMap.getElem?_emptyc] at hs
    cases hs
  have hKnown : IsKnown memo' m := by
    induction hReaches with
    | refl => exact hVisits.isKnown_of_mem n (by simp)
    | tail _ hStep ih =>
        obtain ⟨s, hs⟩ := ih
        exact (hVisits.enters hs (hNone _)).2.2 _ hStep
  obtain ⟨s, hs⟩ := hKnown
  exact (hVisits.enters hs (hNone m)).2.1

end Dependents

end Whittle

------------------------------------------------------------
-- What Is Found Away From Cycles
------------------------------------------------------------

namespace Whittle

namespace Dependents

variable {g : Dependents} {memo memo' : Memo} {m n : NodeId}
variable {ns : List NodeId} {found s : NodeSet}

/-
  What is kept for a node is complete if no cycle is reached
  from it and the node is not open.
-/
def IsExact
    (g : Dependents)
    (isOpen : NodeId → Prop)
    (memo : Memo) : Prop :=
  ∀ (m : NodeId) (s : NodeSet),
    memo[m]? = some s → g.IsAcyclicFrom m →
      isOpen m ∨ ∀ k, g.Reaches m k → k ∈ s

/- Entering a node opens it. -/
theorem IsExact.enter
    {isOpen : NodeId → Prop}
    (hExact : g.IsExact isOpen memo)
    (n : NodeId) :
    g.IsExact (fun m => m = n ∨ isOpen m) (memo.insert n []) := by
  intro m s hEntry hAcyclic
  rcases insert_cases hEntry with ⟨rfl, _⟩ | ⟨_, hOld⟩
  · exact .inl (.inl rfl)
  · exact (hExact m s hOld hAcyclic).imp_left .inr

/- Leaving a node closes it. -/
theorem IsExact.leave
    {isOpen : NodeId → Prop}
    (hExact : g.IsExact (fun m => m = n ∨ isOpen m) memo)
    (hFound : g.IsAcyclicFrom n → ∀ k, g.Reaches n k → k ∈ found) :
    g.IsExact isOpen (memo.insert n found) := by
  intro m s hEntry hAcyclic
  rcases insert_cases hEntry with ⟨rfl, rfl⟩ | ⟨hNe, hOld⟩
  · exact .inr (hFound hAcyclic)
  · rcases hExact m s hOld hAcyclic with (rfl | hOpen) | hAll
    · exact absurd rfl hNe
    · exact .inl hOpen
    · exact .inr hAll

/-
  From a node that reaches no cycle all that is reached is
  found.  Open nodes lead to the nodes that are visited, so
  none of them is such a node.
-/
theorem Visits.exact
    (hVisits : g.Visits memo ns found memo')
    {isOpen : NodeId → Prop}
    (hOpen : ∀ o, isOpen o → ∀ n ∈ ns,
      Relation.TransGen g.Leads o n)
    (hExact : g.IsExact isOpen memo) :
    (∀ n ∈ ns, g.IsAcyclicFrom n →
      ∀ k, g.Reaches n k → k ∈ found) ∧
      g.IsExact isOpen memo' := by
  induction hVisits generalizing isOpen with
  | nil => exact ⟨by simp, hExact⟩
  | @known memo _ n rest found more hKnown _ ih =>
      obtain ⟨hMore, hExact'⟩ :=
        ih (fun o ho m hm =>
          hOpen o ho m (List.mem_cons_of_mem n hm)) hExact
      refine ⟨List.forall_mem_cons.mpr ⟨?_, ?_⟩, hExact'⟩
      · intro hAcyclic k hk
        refine List.mem_append_left _ ?_
        rcases hExact n found hKnown hAcyclic with hn | hAll
        · have hCycle := hOpen n hn n (by simp)
          exact absurd hCycle (hAcyclic n .refl)
        · exact hAll k hk
      · exact fun m hm hAcyclic k hk =>
          List.mem_append_right _ (hMore m hm hAcyclic k hk)
  | @fresh memo inner _ n rest below more _ _ _ ihBelow ihRest =>
      have hOpenBelow :
          ∀ o, (o = n ∨ isOpen o) → ∀ d ∈ g.of n,
            Relation.TransGen g.Leads o d := by
        rintro o (rfl | ho) d hd
        · exact .single hd
        · exact .tail (hOpen o ho n (by simp)) hd
      obtain ⟨hBelow, hInner⟩ := ihBelow hOpenBelow (hExact.enter n)
      have hFound :
          g.IsAcyclicFrom n →
            ∀ k, g.Reaches n k → k ∈ NodeSet.ofList (n :: below) := by
        intro hAcyclic k hk
        rw [NodeSet.mem_ofList, List.mem_cons]
        rcases Relation.ReflTransGen.cases_head hk with
          rfl | ⟨d, hd, hDeep⟩
        · exact .inl rfl
        · exact .inr
            (hBelow d hd (hAcyclic.of_reaches (.single hd)) k hDeep)
      obtain ⟨hMore, hExact'⟩ :=
        ihRest (fun o ho m hm =>
          hOpen o ho m (List.mem_cons_of_mem n hm))
          (hInner.leave hFound)
      refine ⟨List.forall_mem_cons.mpr ⟨?_, ?_⟩, hExact'⟩
      · exact fun hAcyclic k hk =>
          List.mem_append_left _ (hFound hAcyclic k hk)
      · exact fun m hm hAcyclic k hk =>
          List.mem_append_right _ (hMore m hm hAcyclic k hk)

end Dependents

end Whittle

------------------------------------------------------------
-- Closures After Other Closures
------------------------------------------------------------

namespace Whittle

namespace Dependents

variable {g : Dependents} {memo : Memo} {m n : NodeId}

/-
  What searches that have come to an end leave: only nodes
  that are reached are kept, each node is kept for itself, and
  all that it reaches is where no cycle can be reached.
-/
structure IsLawful
    (g : Dependents)
    (memo : Memo) : Prop where
  sound : g.IsSound memo
  own : ∀ (m : NodeId) (s : NodeSet), memo[m]? = some s → m ∈ s
  exact : g.IsExact (fun _ => False) memo

theorem isLawful_empty
    (g : Dependents) :
    g.IsLawful ∅ := by
  have hNone : ∀ (m : NodeId) (s : NodeSet),
      (∅ : Memo)[m]? ≠ some s := by
    intro m s hs
    rw [Std.TreeMap.getElem?_emptyc] at hs
    cases hs
  exact
    { sound := fun m s hs => absurd hs (hNone m s)
      own := fun m s hs => absurd hs (hNone m s)
      exact := fun m s hs => absurd hs (hNone m s) }

/- A search that comes to an end leaves a lawful memo. -/
theorem IsLawful.closure
    (hLawful : g.IsLawful memo)
    (n : NodeId) :
    g.IsLawful (g.closure memo n).2 := by
  have hVisits := g.visits_closure memo n
  refine
    { sound := (hVisits.sound hLawful.sound).2
      own := ?_
      exact := (hVisits.exact (by simp) hLawful.exact).2 }
  intro m s hEntry
  by_cases hOld : IsKnown memo m
  · obtain ⟨s', hs'⟩ := hOld
    have hSame := hVisits.keeps hs'
    rw [hEntry] at hSame
    obtain rfl := Option.some.inj hSame
    exact hLawful.own m s hs'
  · exact (hVisits.enters hEntry hOld).1

/- What is known after the closures of some nodes. -/
def memoAfter
    (g : Dependents)
    (ns : List NodeId) : Memo :=
  ns.foldl (fun memo n => (g.closure memo n).2) ∅

/- Closures leave a lawful memo. -/
theorem isLawful_memoAfter
    (g : Dependents)
    (ns : List NodeId) :
    g.IsLawful (g.memoAfter ns) := by
  unfold memoAfter
  generalize hStart : (∅ : Memo) = memo
  have hLawful : g.IsLawful memo := hStart ▸ g.isLawful_empty
  clear hStart
  induction ns generalizing memo with
  | nil => exact hLawful
  | cons n rest ih => exact ih _ (hLawful.closure n)

theorem IsLawful.mem_closure
    (hLawful : g.IsLawful memo)
    (n : NodeId) :
    n ∈ (g.closure memo n).1 ∧
      (∀ m ∈ (g.closure memo n).1, g.Reaches n m) ∧
      (g.IsAcyclicFrom n →
        ∀ m, g.Reaches n m → m ∈ (g.closure memo n).1) := by
  have hVisits := g.visits_closure memo n
  refine ⟨?_, ?_, ?_⟩
  · generalize (g.closure memo n).1 = found at hVisits ⊢
    generalize (g.closure memo n).2 = memo' at hVisits
    cases hVisits with
    | known hKnown _ =>
        exact List.mem_append_left _ (hLawful.own n _ hKnown)
    | fresh _ _ _ =>
        refine List.mem_append_left _ ?_
        rw [NodeSet.mem_ofList]
        exact List.mem_cons_self
  · intro m hm
    obtain ⟨k, hk, hReaches⟩ := (hVisits.sound hLawful.sound).1 m hm
    rwa [List.mem_singleton.mp hk] at hReaches
  · exact (hVisits.exact (by simp) hLawful.exact).1 n (by simp)

theorem reaches_congr
    {g' : Dependents}
    (hSame : ∀ n m, m ∈ g'.of n ↔ m ∈ g.of n) :
    g'.Reaches = g.Reaches ∧
      ∀ n, g'.IsAcyclicFrom n ↔ g.IsAcyclicFrom n := by
  have hLeads : g'.Leads = g.Leads := by
    funext n m
    exact propext (hSame n m)
  unfold IsAcyclicFrom IsOnCycle Reaches
  rw [hLeads]
  exact ⟨rfl, fun _ => Iff.rfl⟩

/-
  Whatever closures have been worked out before, a search with
  a stack comes to an end with the closure of its node.  The
  closure holds the node itself, and only nodes that it
  reaches.  It holds all of these if nothing was known before,
  and also if no cycle is reached from the node.  In that case
  neither the closures worked out before nor the order in
  which dependents are listed make a difference.
-/
theorem closure_reaches
    (g : Dependents)
    (before : List NodeId)
    (n : NodeId) :
    Search.Finds g (g.memoAfter before) n
        (g.closure (g.memoAfter before) n).1
        (g.closure (g.memoAfter before) n).2 ∧
      n ∈ (g.closure (g.memoAfter before) n).1 ∧
      (∀ m ∈ (g.closure (g.memoAfter before) n).1,
        g.Reaches n m) ∧
      (∀ m, m ∈ (g.closure ∅ n).1 ↔ g.Reaches n m) ∧
      (g.IsAcyclicFrom n →
        (∀ m, m ∈ (g.closure (g.memoAfter before) n).1 ↔
          g.Reaches n m) ∧
        ∀ (g' : Dependents) (before' : List NodeId),
          (∀ k m, m ∈ g'.of k ↔ m ∈ g.of k) →
            ∀ m, m ∈ (g'.closure (g'.memoAfter before') n).1 ↔
              m ∈ (g.closure (g.memoAfter before) n).1) := by
  obtain ⟨hOwn, hSound, hExact⟩ :=
    (g.isLawful_memoAfter before).mem_closure n
  have hFirst := g.isLawful_empty.mem_closure n
  refine ⟨Search.finds_closure _ _ _, hOwn, hSound, ?_, ?_⟩
  · exact fun m =>
      ⟨hFirst.2.1 m, (g.visits_closure ∅ n).complete⟩
  · intro hAcyclic
    have hAll :
        ∀ m, m ∈ (g.closure (g.memoAfter before) n).1 ↔
          g.Reaches n m :=
      fun m => ⟨hSound m, hExact hAcyclic m⟩
    refine ⟨hAll, ?_⟩
    intro g' before' hSame m
    obtain ⟨_, hSound', hExact'⟩ :=
      (g'.isLawful_memoAfter before').mem_closure n
    obtain ⟨hReaches, hAcyclic'⟩ := reaches_congr hSame
    rw [hAll, ← hReaches]
    exact ⟨hSound' m, hExact' ((hAcyclic' n).mpr hAcyclic) m⟩

/- A node that another one depends on, found after that one. -/
theorem closure_reaches_pair :
    (⟨0, 1⟩ : NodeId) ∈
      (Dependents.closure ((∅ : Dependents).insert ⟨0, 0⟩ [⟨0, 1⟩])
        (Dependents.memoAfter
          ((∅ : Dependents).insert ⟨0, 0⟩ [⟨0, 1⟩]) [⟨0, 1⟩])
        ⟨0, 0⟩).1 := by
  have hLeads :
      ∀ n m,
        Dependents.Leads
            ((∅ : Dependents).insert ⟨0, 0⟩ [⟨0, 1⟩]) n m →
          n = ⟨0, 0⟩ ∧ m = ⟨0, 1⟩ := by
    intro n m hm
    unfold Leads Dependents.of at hm
    by_cases hSame : (⟨0, 0⟩ : NodeId) = n
    · subst hSame
      simpa using hm
    · rw [Std.TreeMap.getElem?_insert, if_neg,
        Std.TreeMap.getElem?_emptyc] at hm
      · cases hm
      · exact fun hEq => hSame (Std.LawfulEqOrd.eq_of_compare hEq)
  have hAcyclic :=
    isAcyclicFrom_of_rank NodeId.index (by
      intro n m hm
      obtain ⟨rfl, rfl⟩ := hLeads n m hm
      decide) ⟨0, 0⟩
  have hStep :
      Dependents.Reaches
        ((∅ : Dependents).insert ⟨0, 0⟩ [⟨0, 1⟩]) ⟨0, 0⟩ ⟨0, 1⟩ := by
    refine .single ?_
    unfold Leads Dependents.of
    simp
  exact ((closure_reaches _ _ _).2.2.2.2 hAcyclic).1 _ |>.mpr hStep

/-
  On a cycle the closures that were worked out before do make
  a difference: the node where the cycle was entered is missed.
-/
example :
    let g : Dependents :=
      Std.TreeMap.ofList
        [(⟨0, 0⟩, [⟨0, 1⟩]), (⟨0, 1⟩, [⟨0, 0⟩])] compare
    (g.closure ∅ ⟨0, 1⟩).1 = [⟨0, 0⟩, ⟨0, 1⟩] ∧
      (g.closure (g.memoAfter [⟨0, 0⟩]) ⟨0, 1⟩).1 = [⟨0, 1⟩] := by
  cbv

end Dependents

end Whittle
