import Whittle.Proofs.Tree.Walk

/-
  The ancestors of a node.

  Key definitions include:
    * `Tree.IsLinked`

  Main statements:
    * `Tree.IsLinked.add`
    * `Tree.IsLinked.mem_path`
    * `Tree.IsLinked.pairwise_path`
    * `Tree.IsLinked.isBelow_iff`
    * `Tree.IsLinked.reaches_add_size`

  An arena says of each node which parent it has, and of each
  parent which children it has.  Where both agree, going from
  parent to parent leads to the nodes that reach a node.
-/

------------------------------------------------------------
-- Linked Trees
------------------------------------------------------------

namespace Whittle

namespace Tree

/-
  A tree with one root whose nodes know their parents.
    * `filled` : there is a parent entry for each node.
    * `linked` : parents and children agree.
    * `rooted` : every node but the first one has a parent.
-/
structure IsLinked
    (t : Tree) : Prop extends t.IsTree where
  filled : t.parents.size = t.size
  linked : ∀ {p i}, t.parent? i = some p ↔ i ∈ t.children p
  rooted : ∀ {i}, 0 < i → i < t.size → ∃ p, t.parent? i = some p

variable {t : Tree}

/- Parents come before their children. -/
theorem IsLinked.parent_lt
    (hLinked : t.IsLinked)
    {p i : Nat}
    (hParent : t.parent? i = some p) :
    p < i ∧ i < t.size :=
  hLinked.above (hLinked.linked.mp hParent)

theorem IsLinked.parent_zero
    (hLinked : t.IsLinked) :
    t.parent? 0 = none := by
  cases hParent : t.parent? 0 with
  | none => rfl
  | some p => exact absurd (hLinked.parent_lt hParent).1 (by omega)

theorem IsLinked.reaches_zero
    (hLinked : t.IsLinked)
    {i : Nat}
    (hSize : i < t.size) :
    t.Reaches 0 i := by
  induction i using Nat.strongRecOn with
  | ind i ih =>
      rcases Nat.eq_zero_or_pos i with rfl | hPos
      · exact .refl
      · obtain ⟨p, hParent⟩ := hLinked.rooted hPos hSize
        have hLt := (hLinked.parent_lt hParent).1
        exact (ih p hLt (by omega)).tail (hLinked.linked.mp hParent)

/- A tree of a single node. -/
theorem isLinked_single
    (identity : Nat)
    (name kind : String)
    (span : Span) :
    ((empty identity name).add kind span none none).2.IsLinked := by
  have hTree :
      ((empty identity name).add kind span none none).2.IsTree :=
    isTree_add (isTree_empty identity name) kind span none
      (fun _ hp => by cases hp)
  have hNone :
      ∀ p, ((empty identity name).add kind span none none).2.children
        p = [] := by
    intro p
    refine (children_pushEntry kind span none p).trans ?_
    exact children_eq_nil (Nat.zero_le p)
  refine { toIsTree := hTree, filled := rfl, linked := ?_, rooted := ?_ }
  · intro p i
    rw [hNone]
    constructor
    · intro hParent
      cases i <;> simp [parent?, add, empty, pushEntry] at hParent
    · exact fun hi => by cases hi
  · intro i hPos hLt
    have hOne : i < 1 := hLt
    omega

end Tree

end Whittle

------------------------------------------------------------
-- Additions
------------------------------------------------------------

namespace Whittle

namespace Tree

variable {t : Tree} {p : Nat}
variable (kind : String) (span : Span) (image : Option String)

/- A parent of a node that is added is still there. -/
theorem lt_size_pushEntry
    (hp : p < t.size) :
    p < (t.pushEntry kind span image).size := by
  have hSize : (t.pushEntry kind span image).size = t.size + 1 :=
    Array.size_push _
  omega

/- The entries of a tree that a node is added to. -/
theorem entry_add
    (hp : p < t.size)
    (i : Nat) :
    (t.add kind span (some (t.node p)) image).2.entry i =
      if i = t.size then
        ⟨kind, image, span, []⟩
      else if i = p then
        { t.entry p with children := t.children p ++ [t.size] }
      else
        t.entry i := by
  have hLt := lt_size_pushEntry kind span image hp
  have hEntry : t.entries[p]? = some t.entries[p] :=
    Array.getElem?_eq_getElem hp
  have hSize : t.entries.size = t.size := rfl
  unfold add
  dsimp only [node]
  rw [if_neg (fun hNe => hNe rfl), if_pos hLt]
  unfold children entry modify pushEntry
  dsimp only
  rw [Array.getElem?_modify, Array.getElem?_push, hSize]
  by_cases hNew : i = t.size
  · have hOther : p ≠ i := by omega
    rw [if_neg hOther, if_pos hNew, if_pos hNew]
    rfl
  · rw [if_neg hNew, if_neg hNew]
    by_cases hParent : i = p
    · subst hParent
      rw [if_pos rfl, if_pos rfl, hEntry]
      rfl
    · rw [if_neg (Ne.symm hParent), if_neg hParent]

/- A node that is added becomes the last child of its parent. -/
theorem children_add
    (hp : p < t.size)
    (q : Nat) :
    (t.add kind span (some (t.node p)) image).2.children q =
      if q = p then t.children q ++ [t.size]
      else t.children q := by
  have hName : some (t.node p) = some (t.node q) ∧ q ≤ t.size ↔
      q = p := by
    simp only [node, Option.some.injEq, NodeId.mk.injEq, true_and]
    omega
  rw [children_add_eq]
  simp only [hName]

/- The parent of a node that is added is remembered. -/
theorem parents_add :
    (t.add kind span (some (t.node p)) image).2.parents =
      t.parents.push (some p) := by
  rw [parents_add_eq, if_neg (by simp [node])]
  rfl

theorem IsLinked.add
    (hLinked : t.IsLinked)
    (hp : p < t.size) :
    (t.add kind span (some (t.node p)) image).2.IsLinked := by
  have hChildren := children_add kind span image hp
  have hParents := parents_add (t := t) (p := p) kind span image
  have hSize := size_add t kind span (some (t.node p)) image
  have hTree : (t.add kind span (some (t.node p)) image).2.IsTree :=
    isTree_add hLinked.toIsTree kind span image (by
      rintro _ hq
      cases hq
      exact ⟨rfl, hp⟩)
  generalize (t.add kind span (some (t.node p)) image).2 = t' at *
  have hParent :
      ∀ i, t'.parent? i =
        if i = t.size then some p else t.parent? i := by
    intro i
    unfold parent?
    rw [hParents, Array.getElem?_push, hLinked.filled]
    split <;> rfl
  refine
    { toIsTree := hTree
      filled := ?_
      linked := ?_
      rooted := ?_ }
  · rw [hParents, Array.size_push, hLinked.filled, hSize]
  · intro q i
    rw [hParent, hChildren]
    by_cases hNew : i = t.size
    · subst hNew
      have hFresh : t.size ∉ t.children q :=
        fun hi => Nat.lt_irrefl _ (hLinked.above hi).2
      rw [if_pos rfl]
      split
      · rename_i hq
        simp [hq]
      · rename_i hq
        simp [hFresh, Ne.symm hq]
    · rw [if_neg hNew, hLinked.linked]
      split <;> simp [hNew]
  · intro i hPos hLt
    rw [hParent]
    split
    · exact ⟨p, rfl⟩
    · exact hLinked.rooted hPos (by omega)

end Tree

end Whittle

------------------------------------------------------------
-- Paths
------------------------------------------------------------

namespace Whittle

namespace Tree

variable {t : Tree}

/- No more steps upwards are needed than the index tells. -/
theorem IsLinked.pathFrom_eq
    (hLinked : t.IsLinked)
    {fuel : Nat}
    (i : Nat)
    (hFuel : i ≤ fuel) :
    t.pathFrom fuel i = t.pathFrom (fuel + 1) i := by
  induction fuel generalizing i with
  | zero =>
      obtain rfl := Nat.le_zero.mp hFuel
      rw [pathFrom, pathFrom, hLinked.parent_zero]
  | succ fuel ih =>
      rw [pathFrom, pathFrom]
      cases hParent : t.parent? i with
      | none => rfl
      | some p =>
          have hLt := (hLinked.parent_lt hParent).1
          dsimp only
          rw [ih p (by omega)]

/- The path to a node is that to its parent and the node. -/
theorem IsLinked.path_child
    (hLinked : t.IsLinked)
    {p i : Nat}
    (hParent : t.parent? i = some p) :
    t.path i = t.path p ++ [i] := by
  obtain ⟨hLt, hSize⟩ := hLinked.parent_lt hParent
  unfold path
  rw [hLinked.pathFrom_eq i (by omega), pathFrom, hParent]

/- The path to a node without a parent is the node. -/
theorem path_root
    {i : Nat}
    (hParent : t.parent? i = none) :
    t.path i = [i] := by
  unfold path
  cases t.size with
  | zero => rfl
  | succ fuel => rw [pathFrom, hParent]

theorem IsLinked.mem_path
    (hLinked : t.IsLinked)
    {a i : Nat} :
    a ∈ t.path i ↔ t.Reaches a i := by
  induction i using Nat.strongRecOn with
  | ind i ih =>
      cases hParent : t.parent? i with
      | none =>
          rw [path_root hParent, List.mem_singleton]
          constructor
          · rintro rfl
            exact .refl
          · intro hReaches
            cases hReaches with
            | refl => rfl
            | tail _ hChild =>
                rw [← hLinked.linked, hParent] at hChild
                cases hChild
      | some p =>
          have hLt := (hLinked.parent_lt hParent).1
          rw [hLinked.path_child hParent, List.mem_append,
            ih p hLt, List.mem_singleton]
          constructor
          · rintro (hReaches | rfl)
            · exact hReaches.tail (hLinked.linked.mp hParent)
            · exact .refl
          · intro hReaches
            cases hReaches with
            | refl => exact .inr rfl
            | tail hPath hChild =>
                rw [← hLinked.linked, hParent] at hChild
                cases hChild
                exact .inl hPath

/- Each node on a path reaches those after it. -/
theorem IsLinked.pairwise_path
    (hLinked : t.IsLinked)
    (i : Nat) :
    (t.path i).Pairwise t.Reaches := by
  induction i using Nat.strongRecOn with
  | ind i ih =>
      cases hParent : t.parent? i with
      | none =>
          rw [path_root hParent]
          exact List.pairwise_singleton _ _
      | some p =>
          have hLt := (hLinked.parent_lt hParent).1
          rw [hLinked.path_child hParent]
          refine List.pairwise_append.mpr
            ⟨ih p hLt, List.pairwise_singleton _ _, ?_⟩
          intro a ha b hb
          obtain rfl := List.mem_singleton.mp hb
          exact (hLinked.mem_path.mp ha).tail
            (hLinked.linked.mp hParent)

theorem IsTree.eq_of_reaches
    (hTree : t.IsTree)
    {i j : Nat}
    (hij : t.Reaches i j)
    (hji : t.Reaches j i) :
    i = j :=
  Nat.le_antisymm (hTree.le_of_reaches hij) (hTree.le_of_reaches hji)

/- A node lies below the other nodes that reach it. -/
theorem IsLinked.isBelow_iff
    (hLinked : t.IsLinked)
    {i a : Nat} :
    t.isBelow i a ↔ a ≠ i ∧ t.Reaches a i := by
  unfold isBelow
  rw [List.contains_iff_mem]
  cases hParent : t.parent? i with
  | none =>
      rw [path_root hParent, ← hLinked.mem_path, path_root hParent]
      simp
  | some p =>
      have hLt := (hLinked.parent_lt hParent).1
      rw [hLinked.path_child hParent, List.dropLast_concat,
        hLinked.mem_path, ← hLinked.mem_path (i := i),
        hLinked.path_child hParent, List.mem_append,
        hLinked.mem_path, List.mem_singleton]
      constructor
      · intro hReaches
        have hLe := hLinked.le_of_reaches hReaches
        exact ⟨by omega, .inl hReaches⟩
      · rintro ⟨hNe, hReaches | rfl⟩
        · exact hReaches
        · exact absurd rfl hNe

end Tree

end Whittle

------------------------------------------------------------
-- Reaching A Node That Is Added
------------------------------------------------------------

namespace Whittle

namespace Tree

variable {t : Tree} {p : Nat}
variable (kind : String) (span : Span) (image : Option String)

theorem IsLinked.reaches_add
    (hLinked : t.IsLinked)
    (hp : p < t.size)
    {i j : Nat}
    (hj : j < t.size) :
    (t.add kind span (some (t.node p)) image).2.Reaches i j ↔
      t.Reaches i j := by
  have hChildren := children_add kind span image hp
  have hTree := (hLinked.add kind span image hp).toIsTree
  generalize (t.add kind span (some (t.node p)) image).2 = t' at *
  constructor
  · intro hReaches
    induction hReaches with
    | refl => exact .refl
    | @tail b c _ hc ih =>
        rw [hChildren] at hc
        have hOld : c ∈ t.children b := by
          split at hc
          · rcases List.mem_append.mp hc with hOld | hNew
            · exact hOld
            · exact absurd (List.mem_singleton.mp hNew) (by omega)
          · exact hc
        have hAbove := hLinked.above hOld
        exact (ih (by omega)).tail hOld
  · intro hReaches
    refine Relation.ReflTransGen.mono ?_ _ _ hReaches
    intro b c hc
    rw [hChildren]
    split
    · exact List.mem_append_left _ hc
    · exact hc

theorem IsLinked.reaches_add_size
    (hLinked : t.IsLinked)
    (hp : p < t.size)
    {i : Nat} :
    (t.add kind span (some (t.node p)) image).2.Reaches i t.size ↔
      i = t.size ∨ t.Reaches i p := by
  have hChildren := children_add kind span image hp
  rw [← hLinked.reaches_add kind span image hp hp]
  generalize (t.add kind span (some (t.node p)) image).2 = t' at *
  constructor
  · intro hReaches
    rcases Relation.ReflTransGen.cases_tail hReaches with
      hSame | ⟨b, hAbove, hc⟩
    · exact .inl hSame.symm
    · rw [hChildren] at hc
      split at hc
      · rename_i hb
        exact .inr (hb ▸ hAbove)
      · exact absurd (hLinked.above hc).2 (Nat.lt_irrefl _)
  · rintro (rfl | hAbove)
    · exact .refl
    · refine hAbove.tail ?_
      rw [hChildren, if_pos rfl]
      exact List.mem_append_right _ List.mem_cons_self

end Tree

end Whittle
