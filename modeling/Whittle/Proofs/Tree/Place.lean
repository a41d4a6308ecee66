import Mathlib.Data.List.Sort
import Whittle.Proofs.Tree.Walk

/-
  The places of nodes in document order.

  Key definitions include:
    * `Tree.place`

  Main statements:
    * `Tree.IsTree.exists_preorder`
    * `Tree.IsTree.place_lt_of_reaches`
    * `Tree.IsTree.place_lt_of_apart`
    * `Tree.IsTree.sublist_walk_iff`

  The nodes below a node stand together in the walk of the
  root.  So of two nodes of which neither lies inside the
  other, all that is below the first one comes before all that
  is below the second one.
-/

------------------------------------------------------------
-- Places
------------------------------------------------------------

namespace Whittle

namespace Tree

/- How many nodes come before a node in document order. -/
def place
    (t : Tree)
    (i : Nat) : Nat :=
  (t.walk 0).idxOf i

variable {t : Tree}

/- The preorder of a node holds that of each node below it. -/
theorem IsTree.exists_preorder
    (hTree : t.IsTree)
    {i j : Nat}
    (hReaches : t.Reaches i j) :
    ∃ before after,
      t.preorder i = before ++ t.preorder j ++ after := by
  induction hReaches with
  | refl => exact ⟨[], [], by simp⟩
  | @tail p c _ hChild ih =>
      obtain ⟨before, after, hPreorder⟩ := ih
      obtain ⟨left, right, hChildren⟩ :=
        List.append_of_mem hChild
      refine
        ⟨before ++ p :: left.flatMap t.preorder,
          right.flatMap t.preorder ++ after, ?_⟩
      rw [hPreorder, hTree.preorder_eq p, hChildren]
      simp

/- A walk visits no node twice. -/
theorem IsTree.nodup_walk
    (hTree : t.IsTree)
    {i : Nat}
    (hSize : i < t.size) :
    (t.walk i).Nodup := by
  rw [hTree.walk_eq hSize]
  exact hTree.nodup_preorder i

/- A walk goes through the places one after the other. -/
theorem IsTree.pairwise_walk
    (hTree : t.IsTree)
    (hRoot : 0 < t.size) :
    (t.walk 0).Pairwise fun i j => t.place i < t.place j := by
  rw [List.pairwise_iff_getElem]
  intro a b ha hb hLt
  unfold place
  rwa [(hTree.nodup_walk hRoot).idxOf_getElem,
    (hTree.nodup_walk hRoot).idxOf_getElem]

/- The preorder of a node below the root goes along as well. -/
theorem IsTree.pairwise_preorder
    (hTree : t.IsTree)
    (hRoot : 0 < t.size)
    {i : Nat}
    (hBelow : t.Reaches 0 i) :
    (t.preorder i).Pairwise
      fun i j => t.place i < t.place j := by
  obtain ⟨before, after, hPreorder⟩ := hTree.exists_preorder hBelow
  have hWalk := hTree.pairwise_walk hRoot
  rw [hTree.walk_eq hRoot, hPreorder, List.pairwise_append,
    List.pairwise_append] at hWalk
  exact hWalk.1.2.1

/- A node comes before the nodes below it. -/
theorem IsTree.place_lt_of_reaches
    (hTree : t.IsTree)
    (hRoot : 0 < t.size)
    {i j : Nat}
    (hBelow : t.Reaches 0 i)
    (hReaches : t.Reaches i j)
    (hNe : i ≠ j) :
    t.place i < t.place j := by
  have hPairs := hTree.pairwise_preorder hRoot hBelow
  have hMem := hTree.mem_preorder.mpr hReaches
  rw [hTree.preorder_eq] at hPairs hMem
  rcases List.mem_cons.mp hMem with rfl | hRest
  · exact absurd rfl hNe
  · exact List.rel_of_pairwise_cons hPairs hRest

/-
  What is below a node comes before what is below a later one
  that does not lie inside it.
-/
theorem IsTree.place_lt_of_apart
    (hTree : t.IsTree)
    (hRoot : 0 < t.size)
    {i j m n : Nat}
    (hi : t.Reaches 0 i)
    (hj : t.Reaches 0 j)
    (hLt : t.place i < t.place j)
    (hApart : ¬ t.Reaches i j)
    (hm : t.Reaches i m)
    (hn : t.Reaches j n) :
    t.place m < t.place n := by
  obtain ⟨before, after, hPreorder⟩ := hTree.exists_preorder hi
  have hWalk := hTree.pairwise_walk hRoot
  rw [hTree.walk_eq hRoot, hPreorder, List.pairwise_append,
    List.pairwise_append] at hWalk
  obtain ⟨⟨-, -, hBefore⟩, -, hAfter⟩ := hWalk
  have hLe : t.place j ≤ t.place n := by
    by_cases hSame : j = n
    · exact Nat.le_of_eq (congrArg t.place hSame)
    · exact Nat.le_of_lt (hTree.place_lt_of_reaches hRoot hj hn hSame)
  have hMem := hTree.mem_preorder.mpr (hj.trans hn)
  rw [hPreorder, List.mem_append, List.mem_append] at hMem
  rcases hMem with (hFirst | hInside) | hLast
  · have hOwn := hTree.mem_preorder.mpr (Relation.ReflTransGen.refl (a := i))
    have hEarly := hBefore n hFirst i hOwn
    omega
  · exfalso
    have hInside := hTree.mem_preorder.mp hInside
    rcases hTree.reaches_or_reaches hInside hn with hij | hji
    · exact hApart hij
    · by_cases hSame : j = i
      · exact hApart (hSame ▸ .refl)
      · have hEarly := hTree.place_lt_of_reaches hRoot hj hji hSame
        omega
  · have hOwn := hTree.mem_preorder.mpr hm
    exact hAfter m (List.mem_append_right _ hOwn) n hLast

/-
  Nodes are visited in the order of a list just if their
  places rise along it.
-/
theorem IsTree.sublist_walk_iff
    (hTree : t.IsTree)
    (hRoot : 0 < t.size)
    {ns : List Nat} :
    ns.Sublist (t.walk 0) ↔
      (∀ n ∈ ns, t.Reaches 0 n) ∧
        ns.Pairwise fun i j => t.place i < t.place j := by
  have hWalk := hTree.pairwise_walk hRoot
  constructor
  · intro hSublist
    exact
      ⟨fun n hn => (hTree.mem_walk hRoot).mp (hSublist.subset hn),
        hWalk.sublist hSublist⟩
  · rintro ⟨hBelow, hPairs⟩
    have hNodup : ns.Nodup :=
      hPairs.imp fun hLt hSame => by
        rw [hSame] at hLt
        exact Nat.lt_irrefl _ hLt
    have hSubset : ns ⊆ t.walk 0 :=
      fun n hn => (hTree.mem_walk hRoot).mpr (hBelow n hn)
    have : Std.Antisymm fun i j => t.place i < t.place j :=
      ⟨fun i j hij hji => absurd hij (Nat.lt_asymm hji)⟩
    exact List.sublist_of_subperm_of_pairwise
      (hNodup.subperm hSubset) hPairs hWalk

end Tree

end Whittle
