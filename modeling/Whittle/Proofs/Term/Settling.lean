import Whittle.Proofs.Term.Growing
import Whittle.Proofs.Tree.Hull

/-
  The spans of a tree that has been settled.

  Key definitions include:
    * `Tree.spansBelow`
    * `Tree.precedes`
    * `Tree.Settles`

  Main statements:
    * `pairwise_mergeSort_stable`
    * `Tree.Settles.settleNode`
    * `Tree.settles_settle`
    * `Outline.settled_spans`

  Nodes are settled from the last one to the first, so the
  children of a node, which come after it, have their last
  spans when the node looks at them, and keep them.
-/

------------------------------------------------------------
-- Stable Sorting
------------------------------------------------------------

namespace Whittle

section

variable {key : Nat → Position} {is : List Nat}

/- Comparing numbers by keys that are positions is transitive. -/
theorem atMost_trans_key
    (key : Nat → Position)
    (a b c : Nat)
    (hab : (key a).atMost (key b) = true)
    (hbc : (key b).atMost (key c) = true) :
    (key a).atMost (key c) = true :=
  Position.atMost_trans hab hbc

/- Any two numbers can be compared so. -/
theorem atMost_total_key
    (key : Nat → Position)
    (a b : Nat) :
    ((key a).atMost (key b) || (key b).atMost (key a)) = true := by
  rw [Bool.or_eq_true]
  exact Position.atMost_total _ _

/- Sorting keeps the order of the members with a given key. -/
theorem filter_mergeSort
    (key : Nat → Position)
    (is : List Nat)
    (p : Position) :
    (is.mergeSort fun a b => (key a).atMost (key b)).filter
        (fun a => decide (key a = p)) =
      is.filter (fun a => decide (key a = p)) := by
  have hSub :
      (is.filter fun a => decide (key a = p)).Sublist
        (is.mergeSort fun a b => (key a).atMost (key b)) := by
    refine List.sublist_mergeSort (atMost_trans_key key)
      (atMost_total_key key) ?_ List.filter_sublist
    · refine List.pairwise_of_forall_mem_list ?_
      intro a ha b hb
      have hKeyA := of_decide_eq_true (List.mem_filter.mp ha).2
      have hKeyB := of_decide_eq_true (List.mem_filter.mp hb).2
      rw [hKeyA, hKeyB]
      exact Position.atMost_refl p
  have hFilter := hSub.filter fun a => decide (key a = p)
  rw [List.filter_filter] at hFilter
  simp only [Bool.and_self] at hFilter
  refine (hFilter.eq_of_length ?_).symm
  exact ((List.mergeSort_perm _ _).filter _).length_eq.symm

/-
  Numbers in order are sorted by their keys, and stay in order
  where the keys are the same.
-/
theorem pairwise_mergeSort_stable
    (hOrder : is.Pairwise (· < ·)) :
    (is.mergeSort fun a b => (key a).atMost (key b)).Pairwise
      fun a b =>
        (key a).before (key b) = true ∨ key a = key b ∧ a < b := by
  have hSorted :
      (is.mergeSort fun a b => (key a).atMost (key b)).Pairwise
        fun a b => (key a).atMost (key b) = true :=
    List.pairwise_mergeSort (atMost_trans_key key)
      (atMost_total_key key) is
  rw [List.pairwise_iff_forall_sublist] at hSorted ⊢
  intro a b hPair
  rcases Position.before_or_eq (hSorted hPair) with hBefore | hSame
  · exact .inl hBefore
  · -- both are among the members with this key
    have hKept := hPair.filter fun c => decide (key c = key b)
    rw [filter_mergeSort] at hKept
    simp only [List.filter_cons, hSame, decide_true, if_true,
      List.filter_nil] at hKept
    exact .inr
      ⟨hSame, List.pairwise_iff_forall_sublist.mp hOrder
        (hKept.trans List.filter_sublist)⟩

end

end Whittle

------------------------------------------------------------
-- Settling Node By Node
------------------------------------------------------------

namespace Whittle

namespace Tree

/-
  The spans of a node and its descendants.  The span of the
  first node does not count if there are others.
-/
def spansBelow
    (t : Tree)
    (i : Nat)
    (s : Span) : Prop :=
  ∃ j, t.Reaches i j ∧ (j = 0 → t.children 0 = []) ∧ t.span j = s

/-
  A node stands before another one: it begins before it, or it
  begins with it and has been visited before.
-/
def precedes
    (t : Tree)
    (a b : Nat) : Prop :=
  (t.span a).first.before (t.span b).first = true ∨
    (t.span a).first = (t.span b).first ∧ a < b

/-
  The nodes of a tree from some index on have been settled.
    * `waiting` : the entries before are the same.
    * `same` : nothing else is changed.
    * `covers` : a span is the hull of those below.
    * `permuted`, `sorted` : children are put in order.
-/
structure Settles
    (g t : Tree)
    (k : Nat) : Prop where
  size : t.size = g.size
  parents : t.parents = g.parents
  same : ∀ i, t.kind i = g.kind i ∧ t.image i = g.image i
  waiting : ∀ i < k, t.entry i = g.entry i
  covers : ∀ i, k ≤ i → i < g.size →
    (t.span i).IsHull (g.spansBelow i)
  permuted : ∀ i, (t.children i).Perm (g.children i)
  sorted : ∀ i, k ≤ i → (t.children i).Pairwise t.precedes

variable {g t : Tree} {k : Nat}

theorem Settles.mem_children
    (hSettles : g.Settles t k)
    {p i : Nat} :
    i ∈ t.children p ↔ i ∈ g.children p :=
  (hSettles.permuted p).mem_iff

theorem Settles.reaches_eq
    (hSettles : g.Settles t k) :
    t.Reaches = g.Reaches := by
  unfold Reaches
  congr 1
  funext p i
  exact propext hSettles.mem_children

theorem settles_self
    (g : Tree) :
    g.Settles g g.size where
  size := rfl
  parents := rfl
  same _ := ⟨rfl, rfl⟩
  waiting _ _ := rfl
  covers i hLe hLt := absurd hLt (Nat.not_lt.mpr hLe)
  permuted _ := List.Perm.refl _
  sorted i hLe := by
    rw [children_eq_nil hLe]
    exact List.Pairwise.nil

/- The spans below a node are its own and those below children. -/
theorem spansBelow_iff
    {i : Nat}
    {s : Span} :
    g.spansBelow i s ↔
      ((i = 0 → g.children 0 = []) ∧ g.span i = s) ∨
        ∃ c ∈ g.children i, g.spansBelow c s := by
  unfold spansBelow
  constructor
  · rintro ⟨j, hReaches, hFirst, hSpan⟩
    rcases Relation.ReflTransGen.cases_head hReaches with
      rfl | ⟨c, hc, hDeep⟩
    · exact .inl ⟨hFirst, hSpan⟩
    · exact .inr ⟨c, hc, j, hDeep, hFirst, hSpan⟩
  · rintro (⟨hFirst, hSpan⟩ | ⟨c, hc, j, hDeep, hFirst, hSpan⟩)
    · exact ⟨i, .refl, hFirst, hSpan⟩
    · exact ⟨j, .head hc hDeep, hFirst, hSpan⟩

theorem pairwise_precedes_congr
    {t' : Tree}
    {cs : List Nat}
    (hSorted : cs.Pairwise t.precedes)
    (hSpan : ∀ c ∈ cs, t'.span c = t.span c) :
    cs.Pairwise t'.precedes := by
  refine hSorted.imp_of_mem ?_
  intro a b ha hb hPrecedes
  unfold precedes
  rw [hSpan a ha, hSpan b hb]
  exact hPrecedes

/-
  One more node has been settled if its entry is all that is
  changed.  Its children come after it, so they keep their
  spans, and so do all nodes that have been settled before.
-/
theorem Settles.extend
    {t' : Tree}
    (hTree : g.IsTree)
    (hSettles : g.Settles t (k + 1))
    (hSize : t'.size = t.size)
    (hParents : t'.parents = t.parents)
    (hOther : ∀ i, i ≠ k → t'.entry i = t.entry i)
    (hSame : t'.kind k = t.kind k ∧ t'.image k = t.image k)
    (hCovers : (t'.span k).IsHull (g.spansBelow k))
    (hPermuted : (t'.children k).Perm (t.children k))
    (hSorted : (t'.children k).Pairwise t.precedes) :
    g.Settles t' k := by
  have hPerm : ∀ i, (t'.children i).Perm (g.children i) := by
    intro i
    by_cases hi : i = k
    · subst hi
      exact hPermuted.trans (hSettles.permuted i)
    · refine List.Perm.trans (List.Perm.of_eq ?_)
        (hSettles.permuted i)
      exact congrArg NodeEntry.children (hOther i hi)
  have hSpan : ∀ i, i ≠ k → t'.span i = t.span i :=
    fun i hi => congrArg NodeEntry.span (hOther i hi)
  have hKeep :
      ∀ i, k ≤ i → ∀ c ∈ t'.children i, t'.span c = t.span c := by
    intro i hLe c hc
    have hAbove := (hTree.above ((hPerm i).mem_iff.mp hc)).1
    exact hSpan c (by omega)
  refine
    { size := hSize.trans hSettles.size
      parents := hParents.trans hSettles.parents
      same := ?_
      waiting := ?_
      covers := ?_
      permuted := hPerm
      sorted := ?_ }
  · intro i
    rw [← (hSettles.same i).1, ← (hSettles.same i).2]
    by_cases hi : i = k
    · subst hi
      exact hSame
    · have hEntry := hOther i hi
      exact
        ⟨congrArg NodeEntry.kind hEntry,
          congrArg NodeEntry.image hEntry⟩
  · intro i hLt
    rw [hOther i (by omega)]
    exact hSettles.waiting i (by omega)
  · intro i hLe hLt
    by_cases hi : i = k
    · subst hi
      exact hCovers
    · rw [hSpan i hi]
      exact hSettles.covers i (by omega) hLt
  · intro i hLe
    refine pairwise_precedes_congr ?_ (hKeep i hLe)
    by_cases hi : i = k
    · subst hi
      exact hSorted
    · rw [show t'.children i = t.children i from
        congrArg NodeEntry.children (hOther i hi)]
      exact hSettles.sorted i (by omega)

/- The span over some children is the hull of what is below. -/
theorem Settles.isHull_hullOf
    (hSettles : g.Settles t k)
    {first : Nat}
    {more : List Nat}
    (hEach : ∀ c ∈ first :: more, k ≤ c ∧ c < g.size) :
    (t.hullOf first more).IsHull
      fun s => ∃ c ∈ first :: more, g.spansBelow c s := by
  have hCovers :
      ∀ c ∈ first :: more, (t.span c).IsHull (g.spansBelow c) :=
    fun c hc => hSettles.covers c (hEach c hc).1 (hEach c hc).2
  have hMore :
      ∀ c ∈ more, (t.span c).IsHull (g.spansBelow c) :=
    fun c hc => hCovers c (List.mem_cons_of_mem first hc)
  have hFirst := hCovers first List.mem_cons_self
  refine (Span.isHull_foldl more hMore hFirst).congr ?_
  simp

/- Below a node without children there is only the node. -/
theorem isHull_leaf
    (hNone : g.children k = []) :
    (g.span k).IsHull (g.spansBelow k) := by
  refine (Span.isHull_self _).congr ?_
  intro s
  rw [spansBelow_iff, hNone]
  constructor
  · rintro rfl
    refine .inl ⟨?_, rfl⟩
    rintro rfl
    exact hNone
  · rintro (⟨_, hSame⟩ | ⟨c, hc, _⟩)
    · exact hSame
    · cases hc

/-
  The span of a node that covers the nodes below its children
  covers what is below the node.  That of the first node is
  left out if it has children.
-/
theorem isHull_above
    {cover : Span}
    {first : Nat}
    {more : List Nat}
    (hMem : ∀ c, c ∈ first :: more ↔ c ∈ g.children k)
    (hCover : cover.IsHull
      fun s => ∃ c ∈ first :: more, g.spansBelow c s) :
    (if k = 0 then cover else (g.span k).hull cover).IsHull
      (g.spansBelow k) := by
  split
  · rename_i hFirst
    subst hFirst
    refine hCover.congr ?_
    intro s
    rw [spansBelow_iff]
    constructor
    · rintro ⟨c, hc, hs⟩
      exact .inr ⟨c, (hMem c).mp hc, hs⟩
    · rintro (⟨hAlone, _⟩ | ⟨c, hc, hs⟩)
      · have hSome := (hMem first).mp List.mem_cons_self
        rw [hAlone rfl] at hSome
        cases hSome
      · exact ⟨c, (hMem c).mpr hc, hs⟩
  · rename_i hLater
    refine ((Span.isHull_self _).hull hCover).congr ?_
    intro s
    rw [spansBelow_iff]
    simp [hMem, hLater]

/- The entries of a tree in which one has been changed. -/
theorem entry_modify
    (t : Tree)
    {i : Nat}
    (hi : i < t.size)
    (f : NodeEntry → NodeEntry)
    (j : Nat) :
    (t.modify i f).entry j =
      if j = i then f (t.entry i) else t.entry j := by
  have hEntry : t.entries[i]? = some t.entries[i] :=
    Array.getElem?_eq_getElem hi
  unfold entry modify
  dsimp only
  rw [Array.getElem?_modify]
  by_cases hj : j = i
  · subst hj
    rw [if_pos rfl, if_pos rfl, hEntry]
    rfl
  · rw [if_neg (Ne.symm hj), if_neg hj]

theorem Settles.settleNode
    (hTree : g.IsTree)
    (hVisited : ∀ p, (g.children p).Pairwise (· < ·))
    (hSettles : g.Settles t (k + 1))
    (hSize : k < g.size) :
    g.Settles (t.settleNode k) k := by
  have hWaiting := hSettles.waiting k (Nat.lt_succ_self k)
  have hChildren : t.children k = g.children k :=
    congrArg NodeEntry.children hWaiting
  have hSpan : t.span k = g.span k :=
    congrArg NodeEntry.span hWaiting
  have hPerm :=
    List.mergeSort_perm (t.children k)
      fun a b => (t.span a).first.atMost (t.span b).first
  have hStable : List.Pairwise t.precedes _ :=
    pairwise_mergeSort_stable (hChildren ▸ hVisited k)
  unfold Tree.settleNode
  dsimp only
  generalize (t.children k).mergeSort
    (fun a b => (t.span a).first.atMost (t.span b).first) =
      sorted at hPerm hStable ⊢
  cases sorted with
  | nil =>
      have hNone : g.children k = [] := by
        rw [← hChildren]
        exact hPerm.nil_eq.symm
      refine hSettles.extend hTree rfl rfl (fun _ _ => rfl)
        ⟨rfl, rfl⟩ ?_ (List.Perm.refl _) ?_
      · rw [hSpan]
        exact isHull_leaf hNone
      · rw [hChildren, hNone]
        exact List.Pairwise.nil
  | cons first more =>
      have hEntry :=
        t.entry_modify (hSettles.size ▸ hSize) fun e =>
          { e with
            span :=
              if k = 0 then t.hullOf first more
              else (t.span k).hull (t.hullOf first more)
            children := first :: more }
      have hOwn := hEntry k
      rw [if_pos rfl] at hOwn
      have hMem : ∀ c, c ∈ first :: more ↔ c ∈ g.children k := by
        intro c
        rw [hPerm.mem_iff, hChildren]
      have hCover := hSettles.isHull_hullOf
        fun c hc => hTree.above ((hMem c).mp hc)
      dsimp only
      refine hSettles.extend hTree (Array.size_modify ..) rfl ?_
        ⟨(congrArg NodeEntry.kind hOwn).trans rfl,
          (congrArg NodeEntry.image hOwn).trans rfl⟩ ?_ ?_ ?_
      · intro i hi
        rw [hEntry, if_neg hi]
      · rw [show Tree.span _ k = _ from
          congrArg NodeEntry.span hOwn, hSpan]
        exact isHull_above hMem hCover
      · rw [show Tree.children _ k = first :: more from
          congrArg NodeEntry.children hOwn]
        exact hPerm
      · rw [show Tree.children _ k = first :: more from
          congrArg NodeEntry.children hOwn]
        exact hStable

/- Settling all nodes from the last one on. -/
theorem Settles.settleBelow
    (hTree : g.IsTree)
    (hVisited : ∀ p, (g.children p).Pairwise (· < ·))
    (hSettles : g.Settles t k)
    (hSize : k ≤ g.size) :
    g.Settles (t.settleBelow k) 0 := by
  induction k generalizing t with
  | zero => exact hSettles
  | succ k ih =>
      exact ih (hSettles.settleNode hTree hVisited hSize)
        (Nat.le_of_succ_le hSize)

/- All nodes of a tree are settled in the end. -/
theorem settles_settle
    (hTree : g.IsTree)
    (hVisited : ∀ p, (g.children p).Pairwise (· < ·)) :
    g.Settles g.settle 0 :=
  g.settles_self.settleBelow hTree hVisited (Nat.le_refl _)

end Tree

end Whittle

------------------------------------------------------------
-- Settled Outlines
------------------------------------------------------------

namespace Whittle

namespace Tree

variable {g t : Tree}

/- What is below a node but the first are all its descendants. -/
theorem spansBelow_of_pos
    (hTree : g.IsTree)
    {i : Nat}
    (hPos : 0 < i)
    (s : Span) :
    g.spansBelow i s ↔ ∃ j, g.Reaches i j ∧ g.span j = s := by
  unfold spansBelow
  refine exists_congr fun j => and_congr_right fun hReaches => ?_
  have hLe := hTree.le_of_reaches hReaches
  constructor
  · exact fun h => h.2
  · exact fun hSpan => ⟨fun hFirst => by omega, hSpan⟩

theorem IsLinked.spansBelow_zero
    (hLinked : g.IsLinked)
    (hSize : 1 < g.size)
    (s : Span) :
    g.spansBelow 0 s ↔ ∃ j, 0 < j ∧ j < g.size ∧ g.span j = s := by
  have hSome : g.children 0 ≠ [] := by
    intro hNone
    rcases Relation.ReflTransGen.cases_head
      (hLinked.reaches_zero hSize) with hSame | ⟨c, hc, _⟩
    · cases hSame
    · rw [hNone] at hc
      cases hc
  unfold spansBelow
  refine exists_congr fun j => ?_
  constructor
  · rintro ⟨hReaches, hFirst, hSpan⟩
    refine ⟨?_, hLinked.lt_of_reaches (by omega) hReaches, hSpan⟩
    rw [Nat.pos_iff_ne_zero]
    exact fun hZero => hSome (hFirst hZero)
  · rintro ⟨hPos, hLt, hSpan⟩
    exact
      ⟨hLinked.reaches_zero hLt, fun hZero => by omega, hSpan⟩

/- The span of a single node is kept. -/
theorem Settles.span_single
    (hLinked : g.IsLinked)
    (hSettles : g.Settles t 0)
    (hSize : g.size = 1) :
    t.span 0 = g.span 0 := by
  have hNone : g.children 0 = [] := by
    refine List.eq_nil_iff_forall_not_mem.mpr fun c hc => ?_
    have hAbove := hLinked.above hc
    omega
  refine ((hSettles.covers 0 (Nat.le_refl 0) (by omega)).congr
    ?_).eq_self
  intro s
  rw [spansBelow_iff, hNone]
  simp

/- A linked tree stays so when it is settled. -/
theorem Settles.isLinked
    (hLinked : g.IsLinked)
    (hSettles : g.Settles t 0) :
    t.IsLinked := by
  have hParent : t.parent? = g.parent? := by
    funext i
    unfold parent?
    rw [hSettles.parents]
  refine
    { above := ?_
      once := ?_
      single := ?_
      filled := ?_
      linked := ?_
      rooted := ?_ }
  · intro p i hi
    rw [hSettles.size]
    exact hLinked.above (hSettles.mem_children.mp hi)
  · exact fun p =>
      (hSettles.permuted p).nodup_iff.mpr (hLinked.once p)
  · intro p q i hp hq
    exact hLinked.single (hSettles.mem_children.mp hp)
      (hSettles.mem_children.mp hq)
  · rw [hSettles.parents, hSettles.size, hLinked.filled]
  · intro p i
    rw [hParent, hSettles.mem_children, hLinked.linked]
  · intro i hPos hLt
    rw [hSettles.size] at hLt
    rw [hParent]
    exact hLinked.rooted hPos hLt

/- The children of a node are the nodes that it is parent of. -/
theorem IsLinked.perm_parent
    (hLinked : t.IsLinked)
    (p : Nat) :
    (t.children p).Perm
      ((List.range t.size).filter fun i =>
        t.parent? i = some p) := by
  refine (List.perm_ext_iff_of_nodup (hLinked.once p) ?_).mpr ?_
  · exact List.nodup_range.filter _
  · intro i
    rw [List.mem_filter, List.mem_range, decide_eq_true_iff,
      hLinked.linked]
    exact ⟨fun hi => ⟨(hLinked.above hi).2, hi⟩, fun h => h.2⟩

end Tree

namespace Outline

theorem isLinked_ofTerm
    (name : String)
    (text : Text)
    (whole : Term) :
    (ofTerm name text whole).tree.IsLinked ∧
      (ofTerm name text whole).terms.size =
        (ofTerm name text whole).tree.size := by
  have hGrown := isGrown_grown name text whole
  have hSettles :=
    Tree.settles_settle hGrown.linked.toIsTree hGrown.visited
  exact
    ⟨hSettles.isLinked hGrown.linked,
      hGrown.matched.trans hSettles.size.symm⟩

/-
  What settling the tree of a term does.  Nodes, parents,
  kinds and images are the same.  The span of every node but
  the first one is the hull of the spans that its own and all
  terms below it have had at first, wherever these stand.
  That of the first node is the hull of all others, both as
  they were and as they are.  The children of a node are those
  that it is the parent of, in order of where they begin now,
  and of their visits where they begin together.  So children
  lie in their parents.
-/
theorem settled_spans
    (name : String)
    (text : Text)
    (whole : Term) :
    let g := (grown name text whole).tree
    let o := ofTerm name text whole
    let t := o.tree
    (t.size = g.size ∧ t.parents = g.parents ∧
        ∀ i, t.kind i = g.kind i ∧ t.image i = g.image i) ∧
      (∀ i, 0 < i → i < g.size →
        ∃ e, (o.term i).extent? = some e ∧
          g.span i = e.span text.lines.toArray) ∧
      (∀ i, 0 < i → i < t.size →
        (t.span i).IsHull
          fun s => ∃ j, t.Reaches i j ∧ g.span j = s) ∧
      (if t.size = 1 then
        t.span 0 = .ofNumbers 1 1 1 1
      else
        (t.span 0).IsHull
            (fun s => ∃ j, 0 < j ∧ j < t.size ∧ g.span j = s) ∧
          (t.span 0).IsHull
            (fun s => ∃ j, 0 < j ∧ j < t.size ∧ t.span j = s)) ∧
      (∀ p,
        (t.children p).Perm
            ((List.range t.size).filter fun i =>
              t.parent? i = some p) ∧
          (t.children p).Pairwise fun a b =>
            (t.span a).first.before (t.span b).first = true ∨
              (t.span a).first = (t.span b).first ∧ a < b) ∧
      ∀ p, ∀ c ∈ t.children p,
        (t.span p).first.atMost (t.span c).first = true ∧
          (t.span c).last.atMost (t.span p).last = true := by
  intro g o t
  have hGrown := isGrown_grown name text whole
  have hLinked : g.IsLinked := hGrown.linked
  have hSettles : g.Settles t 0 :=
    Tree.settles_settle hLinked.toIsTree hGrown.visited
  have hCovers :
      ∀ i, i < g.size → (t.span i).IsHull (g.spansBelow i) :=
    fun i => hSettles.covers i (Nat.zero_le i)
  refine
    ⟨⟨hSettles.size, hSettles.parents, hSettles.same⟩, ?_, ?_, ?_,
      ?_, ?_⟩
  · exact fun i hPos hLt => (hGrown.made i hPos hLt).2.2
  · intro i hPos hLt
    rw [hSettles.size] at hLt
    rw [hSettles.reaches_eq]
    exact (hCovers i hLt).congr
      (Tree.spansBelow_of_pos hLinked.toIsTree hPos)
  · split
    · rename_i hOne
      rw [hSettles.size] at hOne
      exact (hSettles.span_single hLinked hOne).trans hGrown.first
    · rename_i hMore
      rw [hSettles.size] at hMore ⊢
      have hSome : 0 < g.size := hGrown.some
      have hFirst :=
        (hCovers 0 hSome).congr
          (hLinked.spansBelow_zero (by omega))
      refine ⟨hFirst, hFirst.of_parts ?_ ?_⟩
      · rintro _ ⟨i, hPos, hLt, rfl⟩
        refine ⟨_, hCovers i hLt, ?_⟩
        rintro _ ⟨j, hReaches, _, rfl⟩
        have hLe := hLinked.le_of_reaches hReaches
        exact
          ⟨j, by omega, hLinked.lt_of_reaches hLt hReaches, rfl⟩
      · rintro _ ⟨i, hPos, hLt, rfl⟩
        exact
          ⟨_, _, ⟨i, hPos, hLt, rfl⟩, hCovers i hLt, i, .refl,
            fun hZero => by omega, rfl⟩
  · exact fun p =>
      ⟨(hSettles.isLinked hLinked).perm_parent p,
        hSettles.sorted p (Nat.zero_le p)⟩
  · intro p c hc
    rw [hSettles.mem_children] at hc
    obtain ⟨hAbove, hLt⟩ := hLinked.above hc
    refine (hCovers p (by omega)).isInside (hCovers c hLt) ?_
    exact fun s hs => Tree.spansBelow_iff.mpr (.inr ⟨c, hc, hs⟩)

/- A definition of one line with a decorator on the line before. -/
def decorated : Term :=
  .node "Module" none
    [("body",
      .several
        [.node "FunctionDef" (some ⟨⟨2, 0⟩, ⟨2, 10⟩⟩)
          [("name", .word "g"),
            ("decorator_list",
              .several
                [.node "Name" (some ⟨⟨1, 1⟩, ⟨1, 2⟩⟩)
                  [("id", .word "f")]])]])]

/- The definition covers its decorator, and so does the root. -/
theorem settled_spans_small :
    let text : Text := "@f\ndef g(): 0".toList
    let g := (grown "a" text decorated).tree
    let t := (ofTerm "a" text decorated).tree
    (0 < 1 ∧ 1 < t.size ∧
        (t.span 1).IsHull
          fun s => ∃ j, t.Reaches 1 j ∧ g.span j = s) ∧
      (2 ∈ t.children 1 ∧
        (t.span 1).first.atMost (t.span 2).first = true) ∧
      g.span 1 = .ofNumbers 2 1 2 10 ∧
      t.span 1 = .ofNumbers 1 2 2 10 ∧
      t.span 0 = .ofNumbers 1 2 2 10 := by
  intro text g t
  obtain ⟨_, _, hHull, _, _, hInside⟩ :=
    settled_spans "a" text decorated
  have hSize : 1 < t.size := by decide +kernel
  have hChild : 2 ∈ t.children 1 := by decide +kernel
  exact
    ⟨⟨Nat.zero_lt_one, hSize, hHull 1 Nat.zero_lt_one hSize⟩,
      ⟨hChild, (hInside 1 2 hChild).1⟩,
      by decide +kernel, by decide +kernel, by decide +kernel⟩

end Outline

end Whittle
