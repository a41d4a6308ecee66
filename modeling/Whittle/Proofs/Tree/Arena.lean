import Whittle.Proofs.Tree.Additions
import Whittle.Proofs.Tree.Place

/-
  Arenas that additions have built, and how they are walked.

  Key definitions include:
    * `Tree.IsArena`
    * `Tree.IsReordered`
    * `Tree.stackAfter`
    * `Tree.IsTraversed`

  Main statements:
    * `Tree.Records.isArena`
    * `Tree.IsTree.stackAfter_eq_nil_iff`
    * `Tree.IsArena.isTraversed`
    * `Tree.extendAll_isArena`
    * `Tree.exists_ownParent`

  A parent is looked up after the entry of its child has been
  appended.  So a node may be added as its own parent, and no
  walk comes to an end there; without that the parents lie
  before their children, and the lists of children say the
  same as the parents do.
-/

------------------------------------------------------------
-- Arenas
------------------------------------------------------------

namespace Whittle

namespace Tree

/-
  Parents and children of an arena agree.
    * `filled` : there is a parent entry for each node.
    * `earlier` : parents come before their children.
    * `listed` : the children of a node are the nodes whose
      parent it is, in the order of the arena.
    * `placed`, `roots` : the place of a node is the one where
      its parent has it, and the first one without a parent.
-/
structure IsArena
    (t : Tree) : Prop where
  filled : t.parents.size = t.size
  earlier : ∀ {p i}, t.parent? i = some p → p < i ∧ i < t.size
  listed : ∀ p, t.children p =
    (List.range t.size).filter fun i => t.parent? i = some p
  placed : ∀ {p i}, t.parent? i = some p →
    ∀ k, t.childIndex i = .ok k ↔ (t.children p)[k]? = some i
  roots : ∀ {i}, i < t.size → t.parent? i = none →
    t.childIndex i = .ok 0

/- A node is another one or a descendant of it by its parents. -/
def Descends
    (t : Tree) : Nat → Nat → Prop :=
  Relation.ReflTransGen fun p i => t.parent? i = some p

variable {t : Tree}

theorem IsArena.mem_children
    (hArena : t.IsArena)
    {p i : Nat} :
    i ∈ t.children p ↔ t.parent? i = some p := by
  rw [hArena.listed, List.mem_filter, List.mem_range,
    decide_eq_true_iff]
  exact ⟨And.right, fun h => ⟨(hArena.earlier h).2, h⟩⟩

theorem IsArena.reaches_eq
    (hArena : t.IsArena) :
    t.Reaches = t.Descends := by
  unfold Reaches Descends
  congr 1
  funext p i
  exact propext hArena.mem_children

/- An arena is a tree, or several. -/
theorem IsArena.isTree
    (hArena : t.IsArena) :
    t.IsTree where
  above hi := hArena.earlier (hArena.mem_children.mp hi)
  once p := by
    rw [hArena.listed]
    exact List.nodup_range.filter _
  single hp hq := by
    have hParent := hArena.mem_children.mp hp
    rw [hArena.mem_children.mp hq] at hParent
    exact (Option.some.inj hParent).symm

theorem idxOf?_eq_some_iff_of_nodup
    {is : List Nat}
    (hNodup : is.Nodup)
    {i k : Nat} :
    is.idxOf? i = some k ↔ is[k]? = some i := by
  rw [List.idxOf?_eq_some_iff, List.getElem?_eq_some_iff]
  constructor
  · rintro ⟨hk, hi, _⟩
    exact ⟨hk, hi⟩
  · rintro ⟨hk, hi⟩
    refine ⟨hk, hi, fun j hj hSame => ?_⟩
    have hEq := (hNodup.getElem_inj_iff).mp (hSame.trans hi.symm)
    omega

end Tree

end Whittle

------------------------------------------------------------
-- Building Arenas
------------------------------------------------------------

namespace Whittle

namespace Tree

variable {t : Tree} {as : List Addition}

/- Additions name parents that have been added before. -/
def NamesEarlier
    (t : Tree)
    (as : List Addition) : Prop :=
  ∀ (k : Nat) (a : Addition), as[k]? = some a →
    ∀ p ∈ a.parent, p.tree = t.identity ∧ p.index < k

/- Each addition that names no foreign parent is remembered. -/
theorem Records.parents_eq
    (hRecords : t.Records as)
    (hEarlier : t.NamesEarlier as) :
    t.parents.toList = as.map Addition.parentIndex := by
  have hOwn : ∀ a ∈ as, a.isForeign t.identity = false := by
    intro a ha
    obtain ⟨k, hk⟩ := List.mem_iff_getElem?.mp ha
    cases hParent : a.parent with
    | none => simp [Addition.isForeign, hParent]
    | some q =>
        have hTree := (hEarlier k a hk q hParent).1
        simp [Addition.isForeign, hParent, hTree]
  rw [hRecords.parents, List.filter_eq_self.mpr]
  intro a ha
  simp [hOwn a ha]

/- The parents of an arena are those that have been named. -/
theorem Records.parent?_eq_some_iff
    (hRecords : t.Records as)
    (hEarlier : t.NamesEarlier as)
    {p i : Nat} :
    t.parent? i = some p ↔
      as[i]?.bind Addition.parent = some (t.node p) := by
  unfold parent?
  rw [← Array.getElem?_toList, hRecords.parents_eq hEarlier,
    List.getElem?_map]
  cases hi : as[i]? with
  | none => simp
  | some a =>
      cases hParent : a.parent with
      | none => simp [Addition.parentIndex, hParent]
      | some q =>
          obtain ⟨tree, index⟩ := q
          have hTree : tree = t.identity :=
            (hEarlier i a hi _ hParent).1
          simp [Addition.parentIndex, hParent, node, hTree]

/- A parent that has been named comes before its child. -/
theorem Records.parent_lt
    (hRecords : t.Records as)
    (hEarlier : t.NamesEarlier as)
    {p i : Nat}
    (hParent : t.parent? i = some p) :
    p < i ∧ i < t.size := by
  rw [hRecords.parent?_eq_some_iff hEarlier,
    Option.bind_eq_some_iff] at hParent
  obtain ⟨a, hi, hNamed⟩ := hParent
  have hLt := (List.getElem?_eq_some_iff.mp hi).1
  exact ⟨(hEarlier i a hi _ hNamed).2, hRecords.size ▸ hLt⟩

/- The place of a node is looked for among its siblings. -/
theorem childIndex_eq_ok_iff
    {p i k : Nat}
    (hParent : t.parent? i = some p)
    (hSize : p < t.size) :
    t.childIndex i = .ok k ↔ (t.children p).idxOf? i = some k := by
  have hEntry : t.parents[i]? = some (some p) :=
    Option.join_eq_some_iff.mp hParent
  unfold childIndex parentEntry
  rw [hEntry]
  dsimp only
  rw [if_pos hSize]
  cases (t.children p).idxOf? i <;> simp

/- What names earlier parents builds an arena. -/
theorem Records.isArena
    (hRecords : t.Records as)
    (hEarlier : t.NamesEarlier as) :
    t.IsArena := by
  have hParent :
      ∀ {p i}, t.parent? i = some p ↔
        as[i]?.bind Addition.parent = some (t.node p) :=
    hRecords.parent?_eq_some_iff hEarlier
  have hLt : ∀ {p i}, t.parent? i = some p → p < i ∧ i < t.size :=
    hRecords.parent_lt hEarlier
  have hFilled : t.parents.size = t.size := by
    rw [← Array.length_toList, hRecords.parents_eq hEarlier,
      List.length_map, hRecords.size]
  have hListed : ∀ p, t.children p =
      (List.range t.size).filter fun i => t.parent? i = some p := by
    intro p
    rw [hRecords.children, ← hRecords.size]
    refine List.filter_congr fun i _ => ?_
    rw [decide_eq_decide, ← hParent]
    exact ⟨And.left, fun h => ⟨h, Nat.le_of_lt (hLt h).1⟩⟩
  refine ⟨hFilled, hLt, hListed, ?_, ?_⟩
  · intro p i hi k
    obtain ⟨hAbove, hSize⟩ := hLt hi
    have hNodup : (t.children p).Nodup := by
      rw [hListed]
      exact List.nodup_range.filter _
    rw [childIndex_eq_ok_iff hi (by omega),
      idxOf?_eq_some_iff_of_nodup hNodup]
  · intro i hi hRoot
    rw [← hFilled] at hi
    have hEntry : t.parents[i]? = some t.parents[i] :=
      Array.getElem?_eq_getElem hi
    have hNone : t.parents[i] = none := by
      rw [parent?, hEntry] at hRoot
      exact hRoot
    unfold childIndex parentEntry
    rw [hEntry, hNone]

end Tree

end Whittle

------------------------------------------------------------
-- Walking Arenas
------------------------------------------------------------

namespace Whittle

namespace Tree

/- The children of nodes have been put into another order. -/
structure IsReordered
    (t t' : Tree) : Prop where
  size : t'.size = t.size
  permuted : ∀ p, (t'.children p).Perm (t.children p)

/- What is left on the stack of a walk after some visits. -/
def stackAfter
    (t : Tree) : (visits : Nat) → List Nat → List Nat
  | 0, stack => stack
  | _ + 1, [] => []
  | visits + 1, i :: stack =>
      stackAfter t visits (t.children i ++ stack)

variable {t t' : Tree}

/- A tree stays one when children are put into another order. -/
theorem IsReordered.isTree
    (hReordered : t.IsReordered t')
    (hTree : t.IsTree) :
    t'.IsTree where
  above hi := by
    rw [hReordered.size]
    exact hTree.above ((hReordered.permuted _).mem_iff.mp hi)
  once p := (hReordered.permuted p).nodup_iff.mpr (hTree.once p)
  single hp hq :=
    hTree.single ((hReordered.permuted _).mem_iff.mp hp)
      ((hReordered.permuted _).mem_iff.mp hq)

theorem IsReordered.reaches_eq
    (hReordered : t.IsReordered t') :
    t'.Reaches = t.Reaches := by
  unfold Reaches
  congr 1
  funext p i
  exact propext (hReordered.permuted p).mem_iff

/- What is still to be visited is what has not been visited. -/
theorem IsTree.flatMap_stackAfter
    (hTree : t.IsTree)
    (visits : Nat)
    (stack : List Nat) :
    (t.stackAfter visits stack).flatMap t.preorder =
      (stack.flatMap t.preorder).drop visits := by
  induction visits generalizing stack with
  | zero => rfl
  | succ visits ih =>
      cases stack with
      | nil => rfl
      | cons i rest =>
          rw [stackAfter, ih, List.flatMap_append,
            List.flatMap_cons, hTree.preorder_eq]
          rfl

/- A walk is over just when as many nodes have been visited. -/
theorem IsTree.stackAfter_eq_nil_iff
    (hTree : t.IsTree)
    (visits : Nat)
    (stack : List Nat) :
    t.stackAfter visits stack = [] ↔
      (stack.flatMap t.preorder).length ≤ visits := by
  rw [← List.drop_eq_nil_iff, ← hTree.flatMap_stackAfter]
  cases t.stackAfter visits stack with
  | nil => simp
  | cons i rest => simp [hTree.preorder_eq i]

/-
  How a node of an arena is walked from when the children have
  been put into some order.
    * `ends` : the stack is empty after one visit for each node
      of the walk, and not before.
    * `visits` : a walk that is cut off is the first part.
    * `preorder` : the node comes first, and what is below its
      children follows, one child after the other.
    * `holds` : the walk visits the node and its descendants.
    * `once` : no node is visited twice.
    * `above` : no node is visited after a descendant.
    * `together` : what is below a node stands together.
-/
structure IsTraversed
    (t t' : Tree)
    (i : Nat) : Prop where
  ends : ∀ visits, t'.stackAfter visits [i] = [] ↔
    (t'.walk i).length ≤ visits
  visits : ∀ fuel, t'.walkStack fuel [i] = (t'.walk i).take fuel
  preorder : t'.walk i = i :: (t'.children i).flatMap t'.walk
  holds : ∀ j, j ∈ t'.walk i ↔ t.Descends i j
  once : (t'.walk i).Nodup
  above : (t'.walk i).Pairwise fun j k => ¬ t.Descends k j
  together : ∀ j ∈ t'.walk i, t'.walk j <:+: t'.walk i

/- A walk goes through what its node and its children start. -/
theorem IsArena.isTraversed
    (hArena : t.IsArena)
    (hReordered : t.IsReordered t')
    {i : Nat}
    (hi : i < t.size) :
    t.IsTraversed t' i := by
  have hTree := hReordered.isTree hArena.isTree
  have hSame : t'.Reaches = t.Descends :=
    hReordered.reaches_eq.trans hArena.reaches_eq
  rw [← hReordered.size] at hi
  have hWalk : ∀ j, t'.Reaches i j → t'.walk j = t'.preorder j :=
    fun j hj => hTree.walk_eq (hTree.lt_of_reaches hi hj)
  have hOwn := hWalk i .refl
  have hFlat : [i].flatMap t'.preorder = t'.walk i := by
    rw [hOwn, List.flatMap_singleton]
  refine ⟨?_, ?_, ?_, ?_, hTree.nodup_walk hi, ?_, ?_⟩
  · intro visits
    rw [hTree.stackAfter_eq_nil_iff, hFlat]
  · intro fuel
    rw [hTree.walkStack_eq, hFlat]
  · rw [hOwn, hTree.preorder_eq]
    refine congrArg (i :: ·) (List.flatMap_congr fun c hc => ?_)
    exact (hWalk c (.single hc)).symm
  · intro j
    rw [hTree.mem_walk hi, hSame]
  · rw [hOwn, ← hSame]
    exact hTree.pairwise_not_reaches i
  · intro j hj
    have hReaches := (hTree.mem_walk hi).mp hj
    obtain ⟨before, after, hSplit⟩ := hTree.exists_preorder hReaches
    rw [hWalk j hReaches, hOwn, hSplit]
    exact ⟨before, after, rfl⟩

end Tree

end Whittle

------------------------------------------------------------
-- Any Arena That Is Built
------------------------------------------------------------

namespace Whittle

namespace Tree

/- All additions to a tree that has been empty succeed. -/
def AllSucceed
    (identity : Nat)
    (name : String)
    (as : List Addition) : Prop :=
  ∀ (k : Nat) (a : Addition), as[k]? = some a →
    ∃ i, (((empty identity name).extendAll (as.take k)).extend a).1 =
      .ok i

/-
  An addition that succeeds names a parent that has been added
  before, or the node that is being added.
-/
theorem AllSucceed.parent_le
    {identity : Nat}
    {name : String}
    {as : List Addition}
    (hSucceed : AllSucceed identity name as)
    {k : Nat}
    {a : Addition}
    (hk : as[k]? = some a) :
    ∀ p ∈ a.parent, p.tree = identity ∧ p.index ≤ k := by
  intro p hp
  obtain ⟨i, hi⟩ := hSucceed k a hk
  have hNamed := ((extend_eq_ok_iff _ a).mp hi).2 p hp
  have hLt := (List.getElem?_eq_some_iff.mp hk).1
  rw [identity_extendAll,
    (records_extendAll identity name (as.take k)).size,
    List.length_take, Nat.min_eq_left (Nat.le_of_lt hLt)] at hNamed
  exact hNamed

/-
  Parents and children agree in every arena that additions
  have built, if all have succeeded and none has named the
  node that it added as its parent.  In whatever order the
  children are put then, each node is walked from as it should
  be, and each walk comes to an end.
-/
theorem extendAll_isArena
    {identity : Nat}
    {name : String}
    {as : List Addition}
    (hSucceed : AllSucceed identity name as)
    (hOther : ∀ (k : Nat) (a : Addition), as[k]? = some a →
      ∀ p ∈ a.parent, p.index ≠ k) :
    ((empty identity name).extendAll as).IsArena ∧
      ∀ t', ((empty identity name).extendAll as).IsReordered t' →
        ∀ i < as.length,
          ((empty identity name).extendAll as).IsTraversed t' i := by
  have hRecords := records_extendAll identity name as
  have hIdentity := identity_extendAll (empty identity name) as
  have hSize := hRecords.size
  generalize (empty identity name).extendAll as = t at *
  have hEarlier : t.NamesEarlier as := by
    intro k a hk p hp
    obtain ⟨hTree, hLe⟩ := hSucceed.parent_le hk p hp
    have hNe := hOther k a hk p hp
    exact ⟨hTree.trans hIdentity.symm, by omega⟩
  have hArena := hRecords.isArena hEarlier
  refine ⟨hArena, fun t' hReordered i hi => ?_⟩
  exact hArena.isTraversed hReordered (hSize ▸ hi)

/- A root with two children that change their places. -/
theorem extendAll_isArena_pair :
    let as : List Addition :=
      [⟨"M", default, none, none⟩,
        ⟨"A", default, some ⟨0, 0⟩, none⟩,
        ⟨"B", default, some ⟨0, 0⟩, none⟩]
    let t := (empty 0 "a").extendAll as
    let t' := t.modify 0 fun e => { e with children := [2, 1] }
    AllSucceed 0 "a" as ∧
      (∀ (k : Nat) (a : Addition), as[k]? = some a →
        ∀ p ∈ a.parent, p.index ≠ k) ∧
      t.IsReordered t' ∧ t.childIndex 2 = .ok 1 ∧
      t'.walk 0 = [0, 2, 1] ∧ t'.stackAfter 3 [0] = [] := by
  intro as t t'
  have hSucceed : AllSucceed 0 "a" as := by
    intro k a hk
    rcases k with _ | _ | _ | k <;> cases hk <;> exact ⟨_, rfl⟩
  have hOther : ∀ (k : Nat) (a : Addition), as[k]? = some a →
      ∀ p ∈ a.parent, p.index ≠ k := by
    intro k a hk p hp
    rcases k with _ | _ | _ | k <;> cases hk <;> cases hp <;> decide
  have hReordered : t.IsReordered t' := by
    refine ⟨rfl, fun p => ?_⟩
    rcases p with _ | _ | _ | p
    · exact List.Perm.swap 1 2 []
    · exact List.Perm.refl _
    · exact List.Perm.refl _
    · exact List.Perm.refl _
  obtain ⟨hArena, hTraversed⟩ := extendAll_isArena hSucceed hOther
  have hParent : t.parent? 2 = some 0 := rfl
  have hWalk : t'.walk 0 = [0, 2, 1] := rfl
  refine ⟨hSucceed, hOther, hReordered,
    (hArena.placed hParent 1).mpr rfl, hWalk, ?_⟩
  rw [(hTraversed t' hReordered 0 (by decide)).ends, hWalk]
  exact Nat.le_refl 3

/-
  The root of an empty tree can be named as the parent of the
  first node.  The node is its own parent then, and a walk
  from it does not end.
-/
theorem exists_ownParent :
    ∃ as : List Addition,
      AllSucceed 0 "a" as ∧
        ((empty 0 "a").extendAll as).parent? 0 = some 0 ∧
        ¬ ((empty 0 "a").extendAll as).IsArena ∧
        ∀ visits, ((empty 0 "a").extendAll as).stackAfter visits
          [0] = [0] := by
  refine ⟨[⟨"A", default, some ⟨0, 0⟩, none⟩], ?_, rfl,
    fun hArena => ?_, fun visits => ?_⟩
  · intro k a hk
    rcases k with _ | k <;> cases hk
    exact ⟨_, rfl⟩
  · have hOwn := hArena.earlier (p := 0) (i := 0) rfl
    exact Nat.lt_irrefl 0 hOwn.1
  · induction visits with
    | zero => rfl
    | succ visits ih => exact ih

end Tree

end Whittle
