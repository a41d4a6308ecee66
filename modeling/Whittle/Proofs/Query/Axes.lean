import Whittle.Proofs.Query.Order

/-
  Which axes keep the order of the document.

  Key definitions include:
    * `Tree.forked`
    * `PathQuery.forkedSteps`

  Main statements:
    * `PathQuery.select_forked`
    * `PathQuery.evaluate_order`

  A child step that follows a descending one may start from a
  node and from another one inside of it.  The children of the
  outer node then come first, also those behind the inner one.
  So order is kept for all trees just by those axes on which
  no child step follows a descending one.
-/

------------------------------------------------------------
-- A Forked Tree
------------------------------------------------------------

namespace Whittle

namespace Tree

/-
  The children in a chain of `a` nodes with two nested nodes
  `a` and `a + 1` at its end.  Each of the nested nodes is
  followed by a chain, that of the inner one coming first.
-/
def forkedChildren
    (a b i : Nat) : List Nat :=
  if i = a then
    [a + 1, a + b + 3]
  else if i = a + b + 2 ∨ a + 2 * b + 3 ≤ i then
    []
  else
    [i + 1]

/- The kinds of the nested nodes and of those below them. -/
def forkedKind
    (a b i : Nat) : String :=
  if i = a ∨ i = a + 1 then
    "Outer"
  else if i = a + 2 ∨ i = a + b + 3 then
    "Inner"
  else
    "Link"

/- The tree with these children and kinds. -/
def forked
    (a b : Nat) : Tree where
  identity := 0
  name := "forked"
  entries :=
    Array.ofFn (n := a + 2 * b + 4) fun i =>
      ⟨forkedKind a b i, none, default, forkedChildren a b i⟩
  parents :=
    Array.ofFn (n := a + 2 * b + 4) fun i =>
      if i.val = 0 then none
      else if i.val = a + b + 3 then some a
      else some (i.val - 1)

variable {a b i : Nat}

theorem size_forked :
    (forked a b).size = a + 2 * b + 4 :=
  Array.size_ofFn

/- The entries of a forked tree. -/
theorem entry_forked
    (hi : i < a + 2 * b + 4) :
    (forked a b).entry i =
      ⟨forkedKind a b i, none, default, forkedChildren a b i⟩ := by
  unfold entry forked
  rw [Array.getElem?_ofFn, dif_pos hi]
  rfl

/- The kinds in a forked tree. -/
theorem kind_forked
    (hi : i < a + 2 * b + 4) :
    (forked a b).kind i = forkedKind a b i := by
  unfold kind
  rw [entry_forked hi]

theorem children_forked
    (a b i : Nat) :
    (forked a b).children i = forkedChildren a b i := by
  by_cases hi : i < a + 2 * b + 4
  · unfold children
    rw [entry_forked hi]
  · rw [children_eq_nil (by rw [size_forked]; omega)]
    unfold forkedChildren
    rw [if_neg (by omega), if_pos (by omega)]

/- The nodes below the outer one of the nested nodes. -/
theorem children_forked_outer
    (a b : Nat) :
    (forked a b).children a = [a + 1, a + b + 3] := by
  rw [children_forked]
  exact if_pos rfl

/- Elsewhere nodes lie in chains, except at the ends of these. -/
theorem children_forked_link
    (hOuter : i ≠ a)
    (hInner : i ≠ a + b + 2)
    (hSize : i < a + 2 * b + 3) :
    (forked a b).children i = [i + 1] := by
  rw [children_forked]
  unfold forkedChildren
  rw [if_neg hOuter, if_neg (by omega)]

theorem mem_forkedChildren
    {c : Nat} :
    c ∈ forkedChildren a b i ↔
      c = a + b + 3 ∧ i = a ∨
        c = i + 1 ∧ i ≠ a + b + 2 ∧ i < a + 2 * b + 3 := by
  unfold forkedChildren
  split
  · rename_i hSame
    simp only [List.mem_cons, List.not_mem_nil, or_false]
    omega
  · split
    · rename_i hEnd
      simp only [List.not_mem_nil, false_iff]
      omega
    · simp only [List.mem_singleton]
      omega

theorem isTree_forked :
    (forked a b).IsTree := by
  constructor
  · intro p i hi
    rw [children_forked, mem_forkedChildren] at hi
    rw [size_forked]
    omega
  · intro p
    rw [children_forked]
    unfold forkedChildren
    split
    · simp
      omega
    · split <;> simp
  · intro p q i hp hq
    rw [children_forked, mem_forkedChildren] at hp hq
    omega

end Tree

end Whittle

------------------------------------------------------------
-- Climbing Down
------------------------------------------------------------

namespace Whittle

namespace PathQuery

open Step

variable {t : Tree}

/- Steps along given axes that take the first node they can. -/
def firstSteps
    (axes : List Bool) : List Step :=
  axes.map fun descends => ⟨descends, none, none, some 1⟩

/- Such a step takes any node. -/
theorem filter_accepts_first
    (descends : Bool)
    (position : Option Nat)
    (ns : List Nat) :
    ns.filter (Step.accepts ⟨descends, none, none, position⟩ t) = ns :=
  List.filter_true ns

theorem choose_first_none
    (hTree : t.IsTree)
    (hRoot : 0 < t.size)
    (descends : Bool) :
    Step.choose ⟨descends, none, none, some 1⟩ t none = [0] := by
  unfold Step.choose
  rw [filter_accepts_first]
  unfold Step.candidates
  cases descends with
  | true =>
      dsimp only
      rw [if_pos rfl, hTree.walk_eq hRoot, hTree.preorder_eq]
      rfl
  | false => rfl

theorem choose_first_some
    (hTree : t.IsTree)
    {i c : Nat}
    {rest : List Nat}
    (hSize : i < t.size)
    (hChildren : t.children i = c :: rest)
    (descends : Bool) :
    Step.choose ⟨descends, none, none, some 1⟩ t (some i) = [c] := by
  unfold Step.choose
  rw [filter_accepts_first]
  unfold Step.candidates
  cases descends with
  | true =>
      dsimp only
      rw [if_pos rfl, hTree.walk_eq hSize, hTree.preorder_eq,
        hChildren, List.flatMap_cons, hTree.preorder_eq c]
      rfl
  | false =>
      dsimp only
      rw [if_neg Bool.false_ne_true, hChildren]
      rfl

end PathQuery

end Whittle

------------------------------------------------------------
-- Queries On The Forked Tree
------------------------------------------------------------

namespace Whittle

namespace PathQuery

open Step
open Whittle.Tree (forked isTree_forked size_forked
  children_forked_outer children_forked_link)

variable {a b : Nat}

/-
  Steps down to the nested nodes, to these, to the nodes right
  below them, and down to the ends of the chains.
-/
def forkedSteps
    (above below : List Bool) : List Step :=
  firstSteps above ++ [⟨true, some "Outer", none, none⟩] ++
    [⟨false, some "Inner", none, none⟩] ++ firstSteps below

/- The axes of these steps. -/
theorem axes_forkedSteps
    (above below : List Bool) :
    (forkedSteps above below).map Step.descends =
      above ++ true :: false :: below := by
  unfold forkedSteps firstSteps
  simp [Function.comp_def]

/- The context above the nested nodes. -/
def upperContext : Nat → Option Nat
  | 0 => none
  | k + 1 => some k

/- First steps lead down the upper chain. -/
theorem contexts_upper
    {above : List Bool}
    (hLength : above.length ≤ a) :
    contexts (firstSteps above) (forked a b) =
      [upperContext above.length] := by
  induction above using List.reverseRecOn with
  | nil => rfl
  | append_singleton above descends ih =>
      rw [List.length_append, List.length_singleton] at hLength
      rw [List.length_append, List.length_singleton]
      unfold firstSteps at ih ⊢
      rw [List.map_append, List.map_singleton]
      refine contexts_concat_of_nodup [above.length] ?_
        (List.nodup_singleton _)
      rw [ih (by omega), List.flatMap_singleton]
      cases hCount : above.length with
      | zero =>
          exact choose_first_none isTree_forked
            (by rw [size_forked]; omega) descends
      | succ k =>
          exact choose_first_some isTree_forked
            (by rw [size_forked]; omega)
            (children_forked_link (by omega) (by omega) (by omega))
            descends

/- First steps lead down both lower chains. -/
theorem contexts_lower
    {steps : List Step}
    {below : List Bool}
    (hLength : below.length ≤ b)
    (hContexts : contexts steps (forked a b) =
      [some (a + b + 3), some (a + 2)]) :
    contexts (steps ++ firstSteps below) (forked a b) =
      [some (a + b + 3 + below.length),
        some (a + 2 + below.length)] := by
  induction below using List.reverseRecOn with
  | nil =>
      unfold firstSteps
      rw [List.map_nil, List.append_nil]
      exact hContexts
  | append_singleton below descends ih =>
      rw [List.length_append, List.length_singleton] at hLength
      have hChildren : ∀ i,
          i = a + b + 3 + below.length ∨ i = a + 2 + below.length →
            (forked a b).children i = [i + 1] :=
        fun i hi =>
          children_forked_link (by omega) (by omega) (by omega)
      rw [List.length_append, List.length_singleton]
      unfold firstSteps at ih ⊢
      rw [List.map_append, List.map_singleton, ← List.append_assoc]
      refine contexts_concat_of_nodup
        [a + b + 3 + (below.length + 1),
          a + 2 + (below.length + 1)] ?_ (by simp; omega)
      rw [ih (by omega), List.flatMap_cons, List.flatMap_singleton,
        choose_first_some isTree_forked (by rw [size_forked]; omega)
          (hChildren _ (.inl rfl)),
        choose_first_some isTree_forked (by rw [size_forked]; omega)
          (hChildren _ (.inr rfl))]
      rfl

/- Only the nested nodes of the forked tree are outer ones. -/
theorem filter_outer :
    ((forked a b).preorder a).filter
        (Step.accepts ⟨true, some "Outer", none, none⟩ (forked a b)) =
      [a, a + 1] := by
  have hAccepts : ∀ i, i < a + 2 * b + 4 →
      (Step.accepts ⟨true, some "Outer", none, none⟩ (forked a b) i =
        true ↔ i = a ∨ i = a + 1) := by
    intro i hi
    unfold Step.accepts
    rw [Tree.kind_forked hi]
    unfold Tree.forkedKind
    split
    · simp_all
    · split <;> simp_all
  have hNone : ∀ i, a + 1 < i → i < a + 2 * b + 4 →
      ((forked a b).preorder i).filter
          (Step.accepts ⟨true, some "Outer", none, none⟩
            (forked a b)) = [] := by
    intro i hi hSize
    rw [List.filter_eq_nil_iff]
    intro n hn
    have hReaches := isTree_forked.mem_preorder.mp hn
    have hLe := isTree_forked.le_of_reaches hReaches
    have hLt := isTree_forked.lt_of_reaches
      (by rw [size_forked]; exact hSize) hReaches
    rw [size_forked] at hLt
    rw [hAccepts n hLt]
    omega
  have hInner : (forked a b).children (a + 1) = [a + 2] :=
    children_forked_link (by omega) (by omega) (by omega)
  rw [isTree_forked.preorder_eq a, children_forked_outer,
    List.flatMap_cons, List.flatMap_singleton,
    isTree_forked.preorder_eq (a + 1), hInner,
    List.flatMap_singleton,
    List.filter_cons_of_pos ((hAccepts a (by omega)).mpr (.inl rfl)),
    List.cons_append,
    List.filter_cons_of_pos
      ((hAccepts (a + 1) (by omega)).mpr (.inr rfl)),
    List.filter_append, hNone (a + 2) (by omega) (by omega),
    hNone (a + b + 3) (by omega) (by omega)]
  rfl

/- From the context above them both nested nodes are chosen. -/
theorem choose_outer :
    Step.choose ⟨true, some "Outer", none, none⟩ (forked a b)
        (upperContext a) =
      [a, a + 1] := by
  have hCandidates :
      Step.candidates ⟨true, some "Outer", none, none⟩ (forked a b)
          (upperContext a) =
        (forked a b).preorder a := by
    cases a with
    | zero =>
        exact isTree_forked.walk_eq (by rw [size_forked]; omega)
    | succ k =>
        have hChildren : (forked (k + 1) b).children k = [k + 1] :=
          children_forked_link (by omega) (by omega) (by omega)
        unfold upperContext Step.candidates
        dsimp only
        rw [if_pos rfl, isTree_forked.walk_eq
          (by rw [size_forked]; omega), isTree_forked.preorder_eq k,
          hChildren, List.flatMap_singleton]
        rfl
  unfold Step.choose
  rw [hCandidates]
  exact filter_outer

/- From each nested node one inner node is chosen. -/
theorem choose_inner :
    Step.choose ⟨false, some "Inner", none, none⟩ (forked a b)
        (some a) = [a + b + 3] ∧
      Step.choose ⟨false, some "Inner", none, none⟩ (forked a b)
        (some (a + 1)) = [a + 2] := by
  have hAccepts : ∀ i, i < a + 2 * b + 4 →
      Step.accepts ⟨false, some "Inner", none, none⟩ (forked a b) i =
        decide (i = a + 2 ∨ i = a + b + 3) := by
    intro i hi
    unfold Step.accepts
    rw [Tree.kind_forked hi]
    unfold Tree.forkedKind
    split
    · simp
      omega
    · split <;> simp_all
  constructor
  · unfold Step.choose Step.candidates
    dsimp only
    rw [if_neg Bool.false_ne_true, children_forked_outer,
      List.filter_cons_of_neg (by rw [hAccepts _ (by omega)]; simp; omega),
      List.filter_cons_of_pos (by rw [hAccepts _ (by omega)]; simp)]
    rfl
  · unfold Step.choose Step.candidates
    dsimp only
    rw [if_neg Bool.false_ne_true,
      children_forked_link (by omega) (by omega) (by omega),
      List.filter_cons_of_pos (by rw [hAccepts _ (by omega)]; simp)]
    rfl

/-
  The end of the chain behind the inner node is selected first,
  and that of the chain in the inner node last.
-/
theorem select_forked
    (above below : List Bool) :
    select (forkedSteps above below)
        (forked above.length below.length) =
      [above.length + 2 * below.length + 3,
        above.length + below.length + 2] := by
  have hUpper :=
    contexts_upper (a := above.length) (b := below.length)
      (Nat.le_refl above.length)
  have hNested :=
    contexts_concat_of_nodup
      (s := ⟨true, some "Outer", none, none⟩)
      [above.length, above.length + 1]
      (by rw [hUpper, List.flatMap_singleton, choose_outer])
      (by simp)
  have hInner :=
    contexts_concat_of_nodup
      (s := ⟨false, some "Inner", none, none⟩)
      [above.length + below.length + 3, above.length + 2]
      (by
        rw [hNested, List.map_cons, List.map_singleton,
          List.flatMap_cons, List.flatMap_singleton, choose_inner.1,
          choose_inner.2]
        rfl)
      (by simp; omega)
  rw [select_eq]
  unfold forkedSteps
  rw [contexts_lower (Nat.le_refl _) hInner]
  simp
  omega

end PathQuery

end Whittle

------------------------------------------------------------
-- Axes And Order
------------------------------------------------------------

namespace Whittle

namespace Tree

variable {a b : Nat}

theorem reaches_forked
    {i k : Nat}
    (hLinked : ∀ l, l < k → i + l ≠ a + b + 2 ∧
      i + l < a + 2 * b + 3) :
    (forked a b).Reaches i (i + k) := by
  induction k with
  | zero => exact .refl
  | succ k ih =>
      refine (ih fun l hl => hLinked l (by omega)).tail ?_
      rw [children_forked, mem_forkedChildren]
      exact .inr ⟨rfl, hLinked k (Nat.lt_succ_self k)⟩

/- The chain in the inner node comes before the other one. -/
theorem place_forked :
    (forked a b).place (a + b + 2) <
      (forked a b).place (a + 2 * b + 3) := by
  have hTree := isTree_forked (a := a) (b := b)
  have hRoot : 0 < (forked a b).size := by
    rw [size_forked]
    omega
  have hBelow : ∀ i, i ≤ a + b + 2 → (forked a b).Reaches 0 i := by
    intro i hi
    have hChain := reaches_forked (a := a) (b := b) (i := 0) (k := i)
      (fun l hl => by omega)
    rwa [Nat.zero_add] at hChain
  have hOuter := children_forked_outer a b
  have hFirst : a + 1 ∈ (forked a b).children a := by
    simp [hOuter]
  have hSecond : a + b + 3 ∈ (forked a b).children a := by
    simp [hOuter]
  have hLt : (forked a b).place (a + 1) <
      (forked a b).place (a + b + 3) := by
    have hPairs := hTree.pairwise_preorder hRoot (hBelow a (by omega))
    rw [hTree.preorder_eq, hOuter, List.flatMap_cons,
      List.flatMap_singleton] at hPairs
    have hPairs := (List.pairwise_cons.mp hPairs).2
    rw [List.pairwise_append] at hPairs
    exact hPairs.2.2 _ (hTree.mem_preorder.mpr .refl) _
      (hTree.mem_preorder.mpr .refl)
  have hInner := reaches_forked (a := a) (b := b) (i := a + 1)
    (k := b + 1) (fun l hl => by omega)
  have hOther := reaches_forked (a := a) (b := b) (i := a + b + 3)
    (k := b) (fun l hl => by omega)
  rw [show a + 1 + (b + 1) = a + b + 2 by omega] at hInner
  rw [show a + b + 3 + b = a + 2 * b + 3 by omega] at hOther
  refine hTree.place_lt_of_apart hRoot (hBelow _ (by omega))
    ((hBelow a (by omega)).tail hSecond) hLt ?_ hInner hOther
  intro hReaches
  have hSame := hTree.not_reaches_sibling hFirst hSecond hReaches
  omega

end Tree

namespace PathQuery

open Step
open Whittle.Tree (forked isTree_forked size_forked)

/- Axes on which no child step follows a descending one. -/
def AreChildrenFirst
    (axes : List Bool) : Prop :=
  axes.Pairwise fun upper lower => upper = true → lower = true

/- Other axes have a child step right behind a descending one. -/
theorem exists_of_not_areChildrenFirst
    {axes : List Bool}
    (hNot : ¬ AreChildrenFirst axes) :
    ∃ above below, axes = above ++ true :: false :: below := by
  induction axes with
  | nil => exact absurd List.Pairwise.nil hNot
  | cons first rest ih =>
      by_cases hRest : AreChildrenFirst rest
      · cases rest with
        | nil => exact absurd (List.pairwise_singleton _ _) hNot
        | cons second rest =>
            cases first with
            | false =>
                refine absurd (List.pairwise_cons.mpr ⟨?_, hRest⟩) hNot
                exact fun _ _ h => absurd h Bool.false_ne_true
            | true =>
                cases second with
                | false => exact ⟨[], rest, rfl⟩
                | true =>
                    have hAll := (List.pairwise_cons.mp hRest).1
                    refine absurd (List.pairwise_cons.mpr
                      ⟨?_, hRest⟩) hNot
                    intro axis hAxis _
                    rcases List.mem_cons.mp hAxis with rfl | hAxis
                    · rfl
                    · exact hAll axis hAxis rfl
      · obtain ⟨above, below, rfl⟩ := ih hRest
        exact ⟨first :: above, below, rfl⟩

/- Such axes have child steps start from nodes of one depth. -/
theorem AreChildrenFirst.startApart
    {t : Tree}
    (hTree : t.IsTree)
    (hRoot : 0 < t.size)
    {steps : List Step}
    (hAxes : AreChildrenFirst (steps.map Step.descends)) :
    StartApart t steps := by
  rintro before s after rfl hDescends i hi j hj hReaches
  refine eq_of_reaches_of_children hTree hRoot ?_ hi hj hReaches
  unfold AreChildrenFirst at hAxes
  rw [List.map_append, List.pairwise_append] at hAxes
  intro s' hs'
  by_contra hOther
  have hBoth := hAxes.2.2 s'.descends (List.mem_map_of_mem hs')
    s.descends (by simp) (Bool.eq_true_of_not_eq_false hOther)
  rw [hDescends] at hBoth
  cases hBoth

/-
  Nodes are selected in the order of the first trails that lead
  to them.  This is the order of the document if no child step
  follows a descending one.  With any other axes there is a
  tree, and a query with these axes, for which it is not.
-/
theorem evaluate_order
    {t : Tree}
    (hTree : t.IsTree)
    (hRoot : 0 < t.size)
    (q : PathQuery) :
    ((q.evaluate t).Pairwise fun m n =>
      IsEarlier t q.steps (some m) (some n)) ∧
      (AreChildrenFirst (q.steps.map Step.descends) →
        (q.evaluate t).Sublist (t.walk 0)) ∧
      (¬ AreChildrenFirst (q.steps.map Step.descends) →
        ∃ (t' : Tree) (q' : PathQuery),
          t'.IsTree ∧ 0 < t'.size ∧
            q'.steps.map Step.descends =
              q.steps.map Step.descends ∧
            ¬ (q'.evaluate t').Sublist (t'.walk 0)) := by
  refine ⟨?_, ?_, ?_⟩
  · unfold evaluate
    rw [select_eq, List.pairwise_filterMap]
    refine (leads_contexts hTree hRoot q.steps).2.imp ?_
    rintro c d hEarlier m hm n hn
    obtain rfl : c = some m := hm
    obtain rfl : d = some n := hn
    exact hEarlier
  · intro hAxes
    exact select_sublist_walk hTree hRoot
      (hAxes.startApart hTree hRoot)
  · intro hNot
    rcases exists_of_not_areChildrenFirst hNot with
      ⟨above, below, hAxes⟩
    have hSome : 0 < (forked above.length below.length).size := by
      rw [size_forked]
      omega
    refine ⟨forked above.length below.length,
      ⟨"", forkedSteps above below⟩, isTree_forked, hSome, ?_, ?_⟩
    · rw [hAxes]
      exact axes_forkedSteps above below
    · intro hOrder
      rw [isTree_forked.sublist_walk_iff hSome] at hOrder
      unfold evaluate at hOrder
      dsimp only at hOrder
      rw [select_forked] at hOrder
      have hLast := List.rel_of_pairwise_cons hOrder.2
        (List.mem_singleton_self _)
      exact Nat.lt_asymm hLast Tree.place_forked

/-
  The statement of a function comes before that of a function
  in it, which the document has first.
-/
theorem evaluate_order_nested :
    let q : PathQuery :=
      ⟨"//FunctionDef/Pass",
        [⟨true, some "FunctionDef", none, none⟩,
          ⟨false, some "Pass", none, none⟩]⟩
    nested.IsTree ∧ 0 < nested.size ∧ nested.walk 0 = [0, 1, 2, 3, 4] ∧
      q.evaluate nested = [4, 3] ∧
      ([4, 3].Pairwise fun m n =>
        IsEarlier nested q.steps (some m) (some n)) ∧
      ¬ AreChildrenFirst (q.steps.map Step.descends) ∧
      ∃ (t' : Tree) (q' : PathQuery),
        t'.IsTree ∧ 0 < t'.size ∧
          q'.steps.map Step.descends = q.steps.map Step.descends ∧
          ¬ (q'.evaluate t').Sublist (t'.walk 0) := by
  intro q
  have hRoot : 0 < nested.size := by decide
  have hWalk : nested.walk 0 = [0, 1, 2, 3, 4] := by decide +kernel
  have hSelected : q.evaluate nested = [4, 3] := by decide +kernel
  rcases evaluate_order isTree_nested hRoot q with
    ⟨hEarlier, hKept, hBroken⟩
  have hNot : ¬ AreChildrenFirst (q.steps.map Step.descends) := by
    intro hFirst
    have hOrder := hKept hFirst
    rw [hWalk, hSelected] at hOrder
    revert hOrder
    decide
  rw [hSelected] at hEarlier
  exact ⟨isTree_nested, hRoot, hWalk, hSelected, hEarlier, hNot,
    hBroken hNot⟩

end PathQuery

end Whittle
