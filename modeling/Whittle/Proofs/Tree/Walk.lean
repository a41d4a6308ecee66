import Mathlib.Data.List.Nodup
import Mathlib.Data.List.Perm.Subperm
import Mathlib.Logic.Relation
import Whittle.Tree.Basic

/-
  The nodes of a tree in document order.

  Key definitions include:
    * `Tree.IsTree`
    * `Tree.Reaches`
    * `Tree.preorder`

  Main statements:
    * `Tree.isTree_add`
    * `Tree.IsTree.walk_eq`
    * `Tree.IsTree.mem_walk`

  An arena is a tree if every child comes after its parent,
  stands among its siblings once, and has no other parent.
  Its walk, which holds a stack, is then the preorder of its
  nodes.
-/

------------------------------------------------------------
-- Trees
------------------------------------------------------------

namespace Whittle

namespace Tree

/-
  The arena is a tree, or several.
    * `above` : children come after their parents.
    * `once` : no node stands twice among siblings.
    * `single` : no node has two parents.
-/
structure IsTree
    (t : Tree) : Prop where
  above : ∀ {p i}, i ∈ t.children p → p < i ∧ i < t.size
  once : ∀ p, (t.children p).Nodup
  single : ∀ {p q i}, i ∈ t.children p → i ∈ t.children q → p = q

/- A node is another one or one of its descendants. -/
def Reaches
    (t : Tree) : Nat → Nat → Prop :=
  Relation.ReflTransGen fun p i => i ∈ t.children p

theorem children_eq_nil
    {t : Tree}
    {i : Nat}
    (hSize : t.size ≤ i) :
    t.children i = [] := by
  have hEntry : t.entries[i]? = none :=
    Array.getElem?_eq_none hSize
  unfold children entry
  rw [hEntry]
  rfl

variable {t : Tree}

/- What holds of a node if it holds of its children. -/
theorem IsTree.induction
    (hTree : t.IsTree)
    {P : Nat → Prop}
    (hNode : ∀ i, (∀ c ∈ t.children i, P c) → P i)
    (i : Nat) :
    P i := by
  -- children have greater indices, but none beyond the size
  induction hRest : t.size - i using Nat.strongRecOn
    generalizing i with
  | ind n ih =>
      apply hNode
      intro c hc
      obtain ⟨hAbove, hSize⟩ := hTree.above hc
      exact ih (t.size - c) (by omega) c rfl

/- Descendants come after their ancestors. -/
theorem IsTree.le_of_reaches
    (hTree : t.IsTree)
    {i j : Nat}
    (hReaches : t.Reaches i j) :
    i ≤ j := by
  induction hReaches with
  | refl => exact Nat.le_refl i
  | tail _ hChild ih =>
      exact Nat.le_trans ih (Nat.le_of_lt (hTree.above hChild).1)

/- Descendants of nodes of the arena lie in the arena. -/
theorem IsTree.lt_of_reaches
    (hTree : t.IsTree)
    {i j : Nat}
    (hSize : i < t.size)
    (hReaches : t.Reaches i j) :
    j < t.size := by
  cases hReaches with
  | refl => exact hSize
  | tail _ hChild => exact (hTree.above hChild).2

theorem IsTree.reaches_or_reaches
    (hTree : t.IsTree)
    {i j k : Nat}
    (hi : t.Reaches i k)
    (hj : t.Reaches j k) :
    t.Reaches i j ∨ t.Reaches j i := by
  induction hi with
  | refl => exact .inr hj
  | tail hPath hChild ih =>
      cases hj with
      | refl => exact .inl (hPath.tail hChild)
      | tail hPath' hChild' =>
          obtain rfl := hTree.single hChild hChild'
          exact ih hPath'

theorem IsTree.not_reaches_sibling
    (hTree : t.IsTree)
    {p c d : Nat}
    (hc : c ∈ t.children p)
    (hd : d ∈ t.children p)
    (hReaches : t.Reaches c d) :
    c = d := by
  cases hReaches with
  | refl => rfl
  | tail hPath hChild =>
      obtain rfl := hTree.single hd hChild
      have hLe := hTree.le_of_reaches hPath
      have hLt := (hTree.above hc).1
      omega

end Tree

end Whittle

------------------------------------------------------------
-- Additions
------------------------------------------------------------

namespace Whittle

namespace Tree

variable {t : Tree}

theorem isTree_empty
    (identity : Nat)
    (name : String) :
    (empty identity name).IsTree := by
  have hNone : ∀ p, (empty identity name).children p = [] :=
    fun p => children_eq_nil (Nat.zero_le p)
  constructor
  · intro p i hi
    rw [hNone] at hi
    cases hi
  · intro p
    rw [hNone]
    exact List.nodup_nil
  · intro p q i hi
    rw [hNone] at hi
    cases hi

/- An addition does not change whose tree it is. -/
theorem identity_add
    (t : Tree)
    (kind : String)
    (span : Span)
    (parent : Option NodeId)
    (image : Option String) :
    (t.add kind span parent image).2.identity = t.identity := by
  unfold add
  cases parent with
  | none => rfl
  | some p =>
      dsimp only
      split
      · rfl
      · split <;> rfl

theorem size_add
    (t : Tree)
    (kind : String)
    (span : Span)
    (parent : Option NodeId)
    (image : Option String) :
    (t.add kind span parent image).2.size = t.size + 1 := by
  have hGrown : (t.pushEntry kind span image).size = t.size + 1 :=
    Array.size_push _
  unfold add
  cases parent with
  | none => exact hGrown
  | some p =>
      dsimp only
      split
      · exact hGrown
      · split
        · exact (Array.size_modify ..).trans hGrown
        · exact hGrown

/- A node that is appended has no children and no parent. -/
theorem children_pushEntry
    (kind : String)
    (span : Span)
    (image : Option String)
    (p : Nat) :
    (t.pushEntry kind span image).children p = t.children p := by
  unfold children entry pushEntry
  rw [Array.getElem?_push]
  split
  · rename_i hp
    subst hp
    simp
    rfl
  · rfl

/- The node that a child is added to has it as its last one. -/
theorem children_modify
    {p : Nat}
    (hp : p < t.size)
    (index q : Nat) :
    (t.modify p fun e =>
      { e with children := e.children ++ [index] }).children q =
      if q = p then t.children p ++ [index]
      else t.children q := by
  unfold children entry modify
  dsimp only
  rw [Array.getElem?_modify]
  by_cases hq : q = p
  · subst hq
    have hEntry : t.entries[q]? = some t.entries[q] :=
      Array.getElem?_eq_getElem hp
    rw [if_pos rfl, if_pos rfl, hEntry]
    rfl
  · rw [if_neg hq, if_neg (Ne.symm hq)]

/-
  An addition gives a child to the node that its parent names,
  which is the last one at most, and none to any other.
-/
theorem children_add_eq
    (t : Tree)
    (kind : String)
    (span : Span)
    (parent : Option NodeId)
    (image : Option String)
    (q : Nat) :
    (t.add kind span parent image).2.children q =
      if parent = some (t.node q) ∧ q ≤ t.size then
        t.children q ++ [t.size]
      else
        t.children q := by
  have hPushed := children_pushEntry (t := t) kind span image
  have hGrown : (t.pushEntry kind span image).size = t.size + 1 :=
    Array.size_push _
  cases parent with
  | none =>
      rw [if_neg fun h => by cases h.1]
      exact hPushed q
  | some p =>
      have hName : some p = some (t.node q) ↔
          p.tree = t.identity ∧ p.index = q := by
        cases p
        simp [node]
      simp only [hName]
      unfold add
      dsimp only
      by_cases hTree : p.tree = t.identity
      · rw [if_neg fun hNe => hNe hTree]
        by_cases hIndex : p.index < (t.pushEntry kind span image).size
        · rw [if_pos hIndex]
          refine (children_modify hIndex t.size q).trans ?_
          rw [hPushed]
          by_cases hq : q = p.index
          · have hLast : q ≤ t.size := by omega
            rw [if_pos hq, if_pos ⟨⟨hTree, hq.symm⟩, hLast⟩, hq]
          · rw [if_neg hq, if_neg fun h => hq h.1.2.symm]
            exact hPushed q
        · have hOutside : ¬ ((p.tree = t.identity ∧ p.index = q) ∧
              q ≤ t.size) := by
            omega
          rw [if_neg hIndex, if_neg hOutside]
          exact hPushed q
      · rw [if_pos hTree, if_neg fun h => hTree h.1.1]
        exact hPushed q

/-
  An addition has a parent entry unless its parent is said to
  be in another tree.
-/
theorem parents_add_eq
    (t : Tree)
    (kind : String)
    (span : Span)
    (parent : Option NodeId)
    (image : Option String) :
    (t.add kind span parent image).2.parents =
      if parent.any fun p => p.tree ≠ t.identity then
        t.parents
      else
        t.parents.push (parent.map NodeId.index) := by
  unfold add
  cases parent with
  | none => rfl
  | some p =>
      have hForeign :
          ((some p).any fun p => p.tree ≠ t.identity) = true ↔
            p.tree ≠ t.identity := by
        rw [Option.any_some, decide_eq_true_iff]
      simp only [hForeign]
      split
      · rfl
      · split <;> rfl

theorem IsTree.append
    {t' : Tree}
    (hTree : t.IsTree)
    (parent : Option Nat)
    (hParent : ∀ p ∈ parent, p < t.size)
    (hSize : t'.size = t.size + 1)
    (hChildren : ∀ q, t'.children q =
      if parent = some q then t.children q ++ [t.size]
      else t.children q) :
    t'.IsTree := by
  have hMem :
      ∀ {q i}, i ∈ t'.children q →
        i ∈ t.children q ∨ parent = some q ∧ i = t.size := by
    intro q i hi
    rw [hChildren] at hi
    split at hi
    · rename_i hq
      rcases List.mem_append.mp hi with hOld | hNew
      · exact .inl hOld
      · exact .inr ⟨hq, List.mem_singleton.mp hNew⟩
    · exact .inl hi
  have hFresh : ∀ q, t.size ∉ t.children q :=
    fun q hi => Nat.lt_irrefl _ (hTree.above hi).2
  constructor
  · intro q i hi
    rcases hMem hi with hOld | ⟨hq, rfl⟩
    · obtain ⟨hAbove, hLt⟩ := hTree.above hOld
      exact ⟨hAbove, by omega⟩
    · exact ⟨hParent q hq, by omega⟩
  · intro q
    rw [hChildren]
    split
    · refine List.nodup_append.mpr
        ⟨hTree.once q, List.nodup_singleton _, ?_⟩
      rintro i hi _ hNew rfl
      rw [List.mem_singleton.mp hNew] at hi
      exact hFresh q hi
    · exact hTree.once q
  · intro q r i hq hr
    rcases hMem hq with hOld | ⟨hParent', rfl⟩
    · rcases hMem hr with hOld' | ⟨_, rfl⟩
      · exact hTree.single hOld hOld'
      · exact absurd hOld (hFresh q)
    · rcases hMem hr with hOld' | ⟨hParent'', _⟩
      · exact absurd hOld' (hFresh r)
      · exact Option.some.inj (hParent'.symm.trans hParent'')

/- A tree stays one when a node is added to it. -/
theorem isTree_add
    (hTree : t.IsTree)
    (kind : String)
    (span : Span)
    {parent : Option NodeId}
    (image : Option String)
    (hParent : ∀ p ∈ parent,
      p.tree = t.identity ∧ p.index < t.size) :
    (t.add kind span parent image).2.IsTree := by
  refine hTree.append (parent.map NodeId.index) ?_
    (size_add t kind span parent image) ?_
  · intro q hq
    obtain ⟨p, hp, rfl⟩ := Option.map_eq_some_iff.mp hq
    exact (hParent p hp).2
  · intro q
    rw [children_add_eq]
    -- a parent in the arena is told by its index
    have hName : parent = some (t.node q) ∧ q ≤ t.size ↔
        parent.map NodeId.index = some q := by
      cases parent with
      | none => simp
      | some p =>
          obtain ⟨hIdentity, hIndex⟩ := hParent p rfl
          obtain ⟨tree, index⟩ := p
          simp only [node, Option.some.injEq, NodeId.mk.injEq,
            Option.map_some]
          dsimp only at hIdentity hIndex
          omega
    simp only [hName]

end Tree

end Whittle

------------------------------------------------------------
-- Siblings
------------------------------------------------------------

namespace Whittle

namespace Tree

/- A tree that is a node with children that have none. -/
def siblings
    (outer : Span)
    (inner : List Span) : Tree :=
  inner.foldl
    (fun t s => (t.add "Child" s (some ⟨0, 0⟩) none).2)
    ((empty 0 "siblings").add "Root" outer none none).2

/- A node with children is a tree. -/
theorem isTree_siblings
    (outer : Span)
    (inner : List Span) :
    (siblings outer inner).IsTree := by
  have hAll :
      ∀ (ss : List Span) (t : Tree), t.IsTree → t.identity = 0 →
        0 < t.size →
          (ss.foldl
            (fun t s => (t.add "Child" s (some ⟨0, 0⟩) none).2)
            t).IsTree := by
    intro ss
    induction ss with
    | nil => exact fun t hTree _ _ => hTree
    | cons s rest ih =>
        intro t hTree hIdentity hSize
        apply ih
        · apply isTree_add hTree
          rintro _ hp
          cases hp
          exact ⟨hIdentity.symm, hSize⟩
        · rw [identity_add, hIdentity]
        · rw [size_add]
          exact Nat.succ_pos _
  apply hAll
  · exact isTree_add (isTree_empty 0 "siblings") _ _ _
      (fun _ hp => by cases hp)
  · rw [identity_add]
    rfl
  · rw [size_add]
    exact Nat.succ_pos _

end Tree

end Whittle

------------------------------------------------------------
-- Preorder
------------------------------------------------------------

namespace Whittle

namespace Tree

variable {t : Tree}

/-
  A node and all its descendants, each before its children.
  `fuel` bounds the depth.
-/
def preorderFrom
    (t : Tree) : (fuel : Nat) → Nat → List Nat
  | 0, i => [i]
  | fuel + 1, i =>
      i :: (t.children i).flatMap (preorderFrom t fuel)

/- A node and all its descendants, each before its children. -/
def preorder
    (t : Tree)
    (i : Nat) : List Nat :=
  t.preorderFrom t.size i

/- No more depth is needed than there are nodes left. -/
theorem IsTree.preorderFrom_eq
    (hTree : t.IsTree)
    {fuel : Nat}
    (i : Nat)
    (hFuel : t.size ≤ i + fuel) :
    t.preorderFrom fuel i = t.preorderFrom (fuel + 1) i := by
  induction fuel generalizing i with
  | zero =>
      unfold preorderFrom
      rw [children_eq_nil (i := i) hFuel]
      rfl
  | succ fuel ih =>
      rw [preorderFrom, preorderFrom]
      refine congrArg (i :: ·) (List.flatMap_congr ?_)
      intro c hc
      have hAbove := (hTree.above hc).1
      exact ih c (by omega)

/- The preorder of a node is made of those of its children. -/
theorem IsTree.preorder_eq
    (hTree : t.IsTree)
    (i : Nat) :
    t.preorder i = i :: (t.children i).flatMap t.preorder := by
  unfold preorder
  rw [hTree.preorderFrom_eq i (by omega), preorderFrom]

theorem IsTree.mem_preorder
    (hTree : t.IsTree)
    {i j : Nat} :
    j ∈ t.preorder i ↔ t.Reaches i j := by
  induction i using hTree.induction with
  | hNode i ih =>
      rw [hTree.preorder_eq, List.mem_cons, List.mem_flatMap]
      constructor
      · rintro (rfl | ⟨c, hc, hj⟩)
        · exact .refl
        · exact .head hc ((ih c hc).mp hj)
      · intro hReaches
        cases hReaches using Relation.ReflTransGen.head_induction_on with
        | refl => exact .inl rfl
        | head hc hj _ => exact .inr ⟨_, hc, (ih _ hc).mpr hj⟩

/- In the preorder of a node no node stands after one below it. -/
theorem IsTree.pairwise_not_reaches
    (hTree : t.IsTree)
    (i : Nat) :
    (t.preorder i).Pairwise fun j k => ¬ t.Reaches k j := by
  induction i using hTree.induction with
  | hNode i ih =>
      rw [hTree.preorder_eq, List.pairwise_cons]
      constructor
      · intro k hk hReaches
        obtain ⟨c, hc, hBelow⟩ := List.mem_flatMap.mp hk
        have hLe := hTree.le_of_reaches (hTree.mem_preorder.mp hBelow)
        have hLe' := hTree.le_of_reaches hReaches
        have hLt := (hTree.above hc).1
        omega
      · refine List.pairwise_flatMap.mpr ⟨ih, ?_⟩
        refine (hTree.once i).imp_of_mem ?_
        intro c d hc hd hNe j hj k hk hReaches
        apply hNe
        have hcj := hTree.mem_preorder.mp hj
        have hdj := (hTree.mem_preorder.mp hk).trans hReaches
        rcases hTree.reaches_or_reaches hcj hdj with hcd | hdc
        · exact hTree.not_reaches_sibling hc hd hcd
        · exact (hTree.not_reaches_sibling hd hc hdc).symm

/- The preorder of a node holds no node twice. -/
theorem IsTree.nodup_preorder
    (hTree : t.IsTree)
    (i : Nat) :
    (t.preorder i).Nodup := by
  refine (hTree.pairwise_not_reaches i).imp ?_
  rintro j _ hNot rfl
  exact hNot .refl

theorem IsTree.length_preorder_le
    (hTree : t.IsTree)
    {i : Nat}
    (hSize : i < t.size) :
    (t.preorder i).length ≤ t.size := by
  have hSubset : t.preorder i ⊆ List.range t.size := by
    intro j hj
    rw [List.mem_range]
    exact hTree.lt_of_reaches hSize (hTree.mem_preorder.mp hj)
  have hLe :=
    ((hTree.nodup_preorder i).subperm hSubset).length_le
  rwa [List.length_range] at hLe

end Tree

end Whittle

------------------------------------------------------------
-- Walks
------------------------------------------------------------

namespace Whittle

namespace Tree

variable {t : Tree}

/-
  A walk visits what is below the nodes on its stack, one
  node after the other, as far as its fuel lasts.
-/
theorem IsTree.walkStack_eq
    (hTree : t.IsTree)
    (fuel : Nat)
    (stack : List Nat) :
    t.walkStack fuel stack =
      (stack.flatMap t.preorder).take fuel := by
  induction fuel generalizing stack with
  | zero => simp [walkStack]
  | succ fuel ih =>
      cases stack with
      | nil => simp [walkStack]
      | cons i rest =>
          rw [walkStack, ih, List.flatMap_append,
            List.flatMap_cons, hTree.preorder_eq]
          rfl

/- A walk is the preorder of the node that it starts from. -/
theorem IsTree.walk_eq
    (hTree : t.IsTree)
    {i : Nat}
    (hSize : i < t.size) :
    t.walk i = t.preorder i := by
  unfold walk
  rw [hTree.walkStack_eq, List.flatMap_singleton]
  exact List.take_of_length_le (hTree.length_preorder_le hSize)

theorem IsTree.mem_walk
    (hTree : t.IsTree)
    {i j : Nat}
    (hSize : i < t.size) :
    j ∈ t.walk i ↔ t.Reaches i j := by
  rw [hTree.walk_eq hSize]
  exact hTree.mem_preorder

end Tree

end Whittle
