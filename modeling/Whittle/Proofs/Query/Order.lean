import Mathlib.Data.List.Lex
import Whittle.Proofs.Query.Selection

/-
  The order in which a query selects nodes.

  Key definitions include:
    * `Step.IsLeastTrail`
    * `PathQuery.IsEarlier`
    * `PathQuery.StartApart`

  Main statements:
    * `PathQuery.leads_contexts`
    * `PathQuery.select_sublist_walk`
    * `PathQuery.eq_of_reaches_of_children`

  A node is kept where it is found first, so nodes come in the
  order of the first trails that lead to them.  This is the
  order of the document as long as no child step starts from a
  node that lies inside of another one.
-/

------------------------------------------------------------
-- Least Trails
------------------------------------------------------------

namespace Whittle

namespace Step

/-
  The first of all trails that lead to a context.  Trails are
  compared at the first node in which they differ.
-/
structure IsLeastTrail
    (t : Tree)
    (steps : List Step)
    (ns : List Nat)
    (c : Option Nat) : Prop where
  trail : IsTrail t steps ns
  last : ns.getLast? = c
  least : ∀ ms, IsTrail t steps ms → ms.getLast? = c →
    ns.map t.place ≤ ms.map t.place

theorem append_lt_append
    {as bs : List Nat}
    (hLt : as < bs)
    (hLength : as.length = bs.length)
    (cs ds : List Nat) :
    as ++ cs < bs ++ ds := by
  induction as generalizing bs with
  | nil =>
      cases bs with
      | nil => exact absurd hLt (lt_irrefl _)
      | cons b bs => cases hLength
  | cons a as ih =>
      cases bs with
      | nil => cases hLength
      | cons b bs =>
          rw [List.cons_append, List.cons_append]
          rw [List.cons_lt_cons_iff] at hLt ⊢
          rcases hLt with hFirst | ⟨hSame, hRest⟩
          · exact .inl hFirst
          · exact .inr ⟨hSame, ih hRest (Nat.succ.inj hLength)⟩

/- A list found among several is found first from one. -/
theorem exists_first
    {found : Option Nat → List Nat}
    {contexts : List (Option Nat)}
    {n : Nat}
    (hFound : n ∈ contexts.flatMap found) :
    ∃ before c after, contexts = before ++ c :: after ∧
      n ∈ found c ∧ n ∉ before.flatMap found := by
  induction contexts with
  | nil => cases hFound
  | cons c rest ih =>
      by_cases hOwn : n ∈ found c
      · exact ⟨[], c, rest, rfl, hOwn, List.not_mem_nil⟩
      · rw [List.flatMap_cons, List.mem_append] at hFound
        obtain ⟨before, d, after, rfl, hn, hNone⟩ :=
          ih (hFound.resolve_left hOwn)
        refine ⟨c :: before, d, after, rfl, hn, ?_⟩
        rw [List.flatMap_cons, List.mem_append]
        exact fun h => h.elim hOwn hNone

end Step

namespace PathQuery

open Step

variable {t : Tree}

/- Two contexts to which there are least trails in order. -/
def IsEarlier
    (t : Tree)
    (steps : List Step)
    (c d : Option Nat) : Prop :=
  ∃ ms ns, IsLeastTrail t steps ms c ∧ IsLeastTrail t steps ns d ∧
    ms.map t.place < ns.map t.place

/-
  A least trail goes on to what is found first from its end.
-/
theorem isLeastTrail_concat
    {steps : List Step}
    {s : Step}
    {before after : List (Option Nat)}
    {c : Option Nat}
    {ns : List Nat}
    {n : Nat}
    (hContexts : contexts steps t = before ++ c :: after)
    (hOrder : (contexts steps t).Pairwise (IsEarlier t steps))
    (hLeast : IsLeastTrail t steps ns c)
    (hChosen : n ∈ s.choose t c)
    (hNew : n ∉ before.flatMap (s.choose t)) :
    IsLeastTrail t (steps ++ [s]) (ns ++ [n]) (some n) where
  trail := hLeast.trail.concat (by rwa [hLeast.last])
  last := List.getLast?_concat
  least := by
    intro all hAll hLast
    obtain ⟨ms, m, rfl, hTrail, hOther⟩ := isTrail_concat.mp hAll
    rw [List.getLast?_concat] at hLast
    cases hLast
    have hLe : ns.map t.place ≤ ms.map t.place := by
      have hMem : ms.getLast? ∈ contexts steps t :=
        mem_contexts.mpr ⟨ms, hTrail, rfl⟩
      rw [hContexts, List.mem_append, List.mem_cons] at hMem
      rcases hMem with hBefore | hSame | hAfter
      · exact absurd (List.mem_flatMap.mpr ⟨_, hBefore, hOther⟩) hNew
      · exact hLeast.least ms hTrail hSame
      · rw [hContexts, List.pairwise_append] at hOrder
        obtain ⟨ns', ms', hOwn, hLater, hLt⟩ :=
          List.rel_of_pairwise_cons hOrder.2.1 hAfter
        exact (hLeast.least ns' hOwn.trail hOwn.last).trans
          (hLt.le.trans (hLater.least ms hTrail rfl))
    rw [List.map_append, List.map_append]
    rcases hLe.lt_or_eq with hLt | hSame
    · refine (append_lt_append hLt ?_ _ _).le
      rw [List.length_map, List.length_map, hLeast.trail.length_eq,
        hTrail.length_eq]
    · rw [hSame]

/- The nodes that one step chooses are in document order. -/
theorem choose_sublist_walk
    (hTree : t.IsTree)
    (hRoot : 0 < t.size)
    {steps : List Step}
    {c : Option Nat}
    (hContext : c ∈ contexts steps t)
    (s : Step) :
    (s.choose t c).Sublist (t.walk 0) := by
  refine (choose_sublist s t c).trans ?_
  obtain ⟨ns, hTrail, rfl⟩ := mem_contexts.mp hContext
  cases hLast : ns.getLast? with
  | none =>
      unfold candidates
      dsimp only
      split
      · exact List.Sublist.refl _
      · rw [List.singleton_sublist]
        exact (hTree.mem_walk hRoot).mpr .refl
  | some i =>
      have hi := hTrail.reaches hTree hRoot i hLast
      have hSize := hTree.lt_of_reaches hRoot hi
      refine (candidates_sublist hTree hSize).trans ?_
      refine (List.drop_sublist 1 _).trans ?_
      obtain ⟨before, after, hPreorder⟩ := hTree.exists_preorder hi
      rw [hTree.walk_eq hRoot, hPreorder]
      exact (List.sublist_append_right before _).trans
        (List.sublist_append_left _ after)

/-
  There is a least trail to each context, and contexts come in
  the order of their least trails.
-/
theorem leads_contexts
    (hTree : t.IsTree)
    (hRoot : 0 < t.size)
    (steps : List Step) :
    (∀ c ∈ contexts steps t, ∃ ns, IsLeastTrail t steps ns c) ∧
      (contexts steps t).Pairwise (IsEarlier t steps) := by
  induction steps using List.reverseRecOn with
  | nil =>
      refine ⟨?_, List.pairwise_singleton _ _⟩
      intro c hc
      obtain ⟨ns, hTrail, hLast⟩ := mem_contexts.mp hc
      obtain rfl := isTrail_nil.mp hTrail
      refine ⟨[], hTrail, hLast, ?_⟩
      intro ms hOther _
      rw [isTrail_nil.mp hOther]
  | append_singleton steps s ih =>
      obtain ⟨hLeads, hOrder⟩ := ih
      have hWalk : ∀ c ∈ contexts steps t,
          (s.choose t c).Sublist (t.walk 0) :=
        fun c hc => choose_sublist_walk hTree hRoot hc s
      -- a node found first from a context has a trail through it
      have hLeast : ∀ {before c after ns n},
          contexts steps t = before ++ c :: after →
            IsLeastTrail t steps ns c → n ∈ s.choose t c →
              n ∉ before.flatMap (s.choose t) →
                IsLeastTrail t (steps ++ [s]) (ns ++ [n]) (some n) :=
        fun hSplit => isLeastTrail_concat hSplit hOrder
      rw [contexts_concat]
      constructor
      · intro c hc
        obtain ⟨n, hn, rfl⟩ := List.mem_map.mp hc
        rw [mem_keepNew] at hn
        obtain ⟨before, c, after, hSplit, hFound, hNew⟩ :=
          exists_first (hn.resolve_left List.not_mem_nil)
        obtain ⟨ns, hc⟩ := hLeads c (by simp [hSplit])
        exact ⟨ns ++ [n], hLeast hSplit hc hFound hNew⟩
      · rw [List.pairwise_map]
        refine pairwise_keepNew
          (fun c hc => (hWalk c hc).nodup (hTree.nodup_walk hRoot)) ?_
        intro before c after hSplit
        obtain ⟨ns, hc⟩ := hLeads c (by simp [hSplit])
        constructor
        · have hPairs :=
            ((hTree.pairwise_walk hRoot).sublist
              (hWalk c (by simp [hSplit]))).sublist
              (List.filter_sublist
                (p := (· ∉ before.flatMap (s.choose t))))
          refine hPairs.imp_of_mem ?_
          intro m n hm hn hLt
          obtain ⟨hFound, hNew⟩ := List.mem_filter.mp hm
          obtain ⟨hFound', hNew'⟩ := List.mem_filter.mp hn
          refine ⟨_, _, hLeast hSplit hc hFound (of_decide_eq_true hNew),
            hLeast hSplit hc hFound' (of_decide_eq_true hNew'), ?_⟩
          rw [List.map_append, List.map_append]
          apply List.append_left_lt
          exact List.cons_lt_cons_iff.mpr (.inl hLt)
        · intro m hm n hn hNew
          obtain ⟨first, d, rest, hBefore, hFound, hNew'⟩ :=
            exists_first hm
          have hFirst :
              contexts steps t = first ++ d :: (rest ++ c :: after) := by
            rw [hSplit, hBefore, List.append_assoc, List.cons_append]
          have hPairs := hOrder
          rw [hFirst, List.pairwise_append] at hPairs
          obtain ⟨ms', ns', hd, hc', hLt⟩ :=
            List.rel_of_pairwise_cons hPairs.2.1
              (List.mem_append_right rest List.mem_cons_self)
          refine ⟨_, _, hLeast hFirst hd hFound hNew',
            hLeast hSplit hc' hn hNew, ?_⟩
          rw [List.map_append, List.map_append]
          refine append_lt_append hLt ?_ _ _
          rw [List.length_map, List.length_map, hd.trail.length_eq,
            hc'.trail.length_eq]

end PathQuery

end Whittle

------------------------------------------------------------
-- Document Order
------------------------------------------------------------

namespace Whittle

namespace Step

variable {t : Tree} {s : Step} {i j m n : Nat}

/-
  From a node inside of another one a descending step chooses
  nothing new that comes before its choice from the other one.
-/
theorem place_lt_of_descends
    (hTree : t.IsTree)
    (hRoot : 0 < t.size)
    (hi : t.Reaches 0 i)
    (hij : t.Reaches i j)
    (hNe : i ≠ j)
    (hDescends : s.descends = true)
    (hm : m ∈ s.choose t (some i))
    (hn : n ∈ s.choose t (some j))
    (hNew : n ∉ s.choose t (some i)) :
    t.place m < t.place n := by
  have hiSize := hTree.lt_of_reaches hRoot hi
  have hjSize := hTree.lt_of_reaches hRoot (hi.trans hij)
  have hBelow : ∀ k, k < t.size →
      s.candidates t (some k) = (t.preorder k).drop 1 := by
    intro k hk
    unfold candidates
    dsimp only
    rw [if_pos hDescends, hTree.walk_eq hk]
  -- what lies below the inner node stands together
  obtain ⟨before, after, hPreorder⟩ := hTree.exists_preorder hij
  have hSplit : ∃ front back,
      (s.candidates t (some i)).filter (s.accepts t) =
        front ++ (s.candidates t (some j)).filter (s.accepts t) ++
          back := by
    rw [hBelow i hiSize, hBelow j hjSize, hPreorder,
      hTree.preorder_eq j]
    cases before with
    | nil =>
        rw [hTree.preorder_eq i, hTree.preorder_eq j,
          List.nil_append, List.cons_append] at hPreorder
        exact absurd (List.cons.inj hPreorder).1 hNe
    | cons k rest =>
        refine
          ⟨(rest ++ [j]).filter (s.accepts t),
            after.filter (s.accepts t), ?_⟩
        rw [← List.filter_append, ← List.filter_append]
        simp
  obtain ⟨front, back, hFound⟩ := hSplit
  have hPairs :
      ((s.candidates t (some i)).filter (s.accepts t)).Pairwise
        fun a b => t.place a < t.place b := by
    have hOrder := hTree.pairwise_preorder hRoot hi
    refine (hOrder.sublist (List.drop_sublist 1 _)).sublist ?_
    rw [← hBelow i hiSize]
    exact List.filter_sublist
  cases hPosition : s.position with
  | none =>
      rw [mem_choose hPosition, ← List.mem_filter] at hn hNew
      rw [hFound] at hNew
      exact absurd
        (List.mem_append_left _ (List.mem_append_right _ hn)) hNew
  | some k =>
      rw [mem_choose_of_position hPosition] at hm hn hNew
      rw [hFound] at hPairs hm hNew
      obtain ⟨hFirst, hm⟩ := hm
      obtain ⟨-, hn⟩ := hn
      have hLater :
          (front ++ (s.candidates t (some j)).filter (s.accepts t) ++
            back)[front.length + (k - 1)]? = some n := by
        rw [List.append_assoc,
          List.getElem?_append_right (Nat.le_add_right _ _),
          Nat.add_sub_cancel_left, List.getElem?_append_left, hn]
        exact (List.getElem?_eq_some_iff.mp hn).1
      have hMore : k - 1 < front.length + (k - 1) := by
        by_contra hLe
        have hSame : front.length + (k - 1) = k - 1 := by omega
        rw [hSame] at hLater
        exact hNew ⟨hFirst, hLater⟩
      obtain ⟨hmSize, rfl⟩ := List.getElem?_eq_some_iff.mp hm
      obtain ⟨hnSize, rfl⟩ := List.getElem?_eq_some_iff.mp hLater
      exact List.pairwise_iff_getElem.mp hPairs _ _ hmSize hnSize hMore

/- From nodes apart a step chooses in the order of these. -/
theorem place_lt_of_apart
    (hTree : t.IsTree)
    (hRoot : 0 < t.size)
    (hi : t.Reaches 0 i)
    (hj : t.Reaches 0 j)
    (hLt : t.place i < t.place j)
    (hApart : ¬ t.Reaches i j)
    (hm : m ∈ s.choose t (some i))
    (hn : n ∈ s.choose t (some j)) :
    t.place m < t.place n := by
  have hm := (choose_sublist s t _).subset hm
  have hn := (choose_sublist s t _).subset hn
  rw [mem_candidates_some hTree (hTree.lt_of_reaches hRoot hi)] at hm
  rw [mem_candidates_some hTree (hTree.lt_of_reaches hRoot hj)] at hn
  exact hTree.place_lt_of_apart hRoot hi hj hLt hApart hm.1 hn.1

end Step

namespace PathQuery

open Step

variable {t : Tree} {steps : List Step}

/- Contexts that are nodes in document order. -/
def AreInOrder
    (t : Tree)
    (c d : Option Nat) : Prop :=
  ∃ i j, c = some i ∧ d = some j ∧ t.place i < t.place j

/-
  Child steps start from nodes that do not lie inside of each
  other.
-/
def StartApart
    (t : Tree)
    (steps : List Step) : Prop :=
  ∀ before s after, steps = before ++ s :: after →
    s.descends = false →
      ∀ i ∈ select before t, ∀ j ∈ select before t,
        t.Reaches i j → i = j

/- A context that is a node is selected. -/
theorem some_mem_contexts
    {i : Nat} :
    some i ∈ contexts steps t ↔ i ∈ select steps t := by
  rw [mem_contexts, mem_select]

/- Behind a step every context is a node. -/
theorem eq_some_of_mem_contexts
    {c : Option Nat}
    (hSome : steps ≠ [])
    (hContext : c ∈ contexts steps t) :
    ∃ i, c = some i := by
  obtain ⟨ns, hTrail, rfl⟩ := mem_contexts.mp hContext
  cases hLast : ns.getLast? with
  | none =>
      rw [List.getLast?_eq_none_iff] at hLast
      subst hLast
      exact absurd
        (List.eq_nil_of_length_eq_zero hTrail.length_eq.symm) hSome
  | some i => exact ⟨i, rfl⟩

theorem reaches_of_mem_select
    (hTree : t.IsTree)
    (hRoot : 0 < t.size)
    {i : Nat}
    (hi : i ∈ select steps t) :
    t.Reaches 0 i := by
  obtain ⟨ns, hTrail, hLast⟩ := mem_select.mp hi
  exact hTrail.reaches hTree hRoot i hLast

/- Contexts stay in document order, step by step. -/
theorem areInOrder_contexts
    (hTree : t.IsTree)
    (hRoot : 0 < t.size)
    (hApart : StartApart t steps) :
    (contexts steps t).Pairwise (AreInOrder t) := by
  induction steps using List.reverseRecOn with
  | nil => exact List.pairwise_singleton _ _
  | append_singleton steps s ih =>
      have hOrder := ih fun before s' after hSplit =>
        hApart before s' (after ++ [s]) (by simp [hSplit])
      have hWalk : ∀ c ∈ contexts steps t,
          (s.choose t c).Sublist (t.walk 0) :=
        fun c hc => choose_sublist_walk hTree hRoot hc s
      rw [contexts_concat, List.pairwise_map]
      refine pairwise_keepNew
        (fun c hc => (hWalk c hc).nodup (hTree.nodup_walk hRoot)) ?_
      intro before c after hSplit
      constructor
      · refine List.Pairwise.imp ?_
          (((hTree.pairwise_walk hRoot).sublist
            (hWalk c (by simp [hSplit]))).sublist
            List.filter_sublist)
        exact fun hLt => ⟨_, _, rfl, rfl, hLt⟩
      · intro m hm n hn hNew
        obtain ⟨b, hb, hm⟩ := List.mem_flatMap.mp hm
        have hNotEarlier : n ∉ s.choose t b := fun h =>
          hNew (List.mem_flatMap.mpr ⟨b, hb, h⟩)
        have hPairs := hOrder
        rw [hSplit, List.pairwise_append] at hPairs
        obtain ⟨i, j, rfl, rfl, hLt⟩ :=
          hPairs.2.2 b hb c List.mem_cons_self
        have hi : i ∈ select steps t := some_mem_contexts.mp (by
          rw [hSplit]
          exact List.mem_append_left _ hb)
        have hj : j ∈ select steps t := some_mem_contexts.mp (by
          simp [hSplit])
        have hiBelow := reaches_of_mem_select hTree hRoot hi
        have hjBelow := reaches_of_mem_select hTree hRoot hj
        have hNe : i ≠ j := by
          rintro rfl
          exact Nat.lt_irrefl _ hLt
        refine ⟨m, n, rfl, rfl, ?_⟩
        by_cases hInside : t.Reaches i j
        · cases hDescends : s.descends with
          | true =>
              exact place_lt_of_descends hTree hRoot hiBelow hInside
                hNe hDescends hm hn hNotEarlier
          | false =>
              exact absurd
                (hApart steps s [] rfl hDescends i hi j hj hInside) hNe
        · exact Step.place_lt_of_apart hTree hRoot hiBelow hjBelow hLt
            hInside hm hn

/- So are then the nodes that a query selects. -/
theorem select_sublist_walk
    (hTree : t.IsTree)
    (hRoot : 0 < t.size)
    (hApart : StartApart t steps) :
    (select steps t).Sublist (t.walk 0) := by
  rw [hTree.sublist_walk_iff hRoot]
  refine ⟨fun i hi => reaches_of_mem_select hTree hRoot hi, ?_⟩
  rw [select_eq, List.pairwise_filterMap]
  refine (areInOrder_contexts hTree hRoot hApart).imp ?_
  rintro _ _ ⟨i, j, rfl, rfl, hLt⟩ _ hi _ hj
  cases hi
  cases hj
  exact hLt

theorem eq_of_reaches_of_children
    (hTree : t.IsTree)
    (hRoot : 0 < t.size)
    (hChildren : ∀ s ∈ steps, s.descends = false)
    {i j : Nat}
    (hi : i ∈ select steps t)
    (hj : j ∈ select steps t)
    (hReaches : t.Reaches i j) :
    i = j := by
  induction steps using List.reverseRecOn generalizing i j with
  | nil => cases hi
  | append_singleton steps s ih =>
      have hChild := hChildren s (by simp)
      have hFrom : ∀ k ∈ select (steps ++ [s]) t,
          ∃ c ∈ contexts steps t, k ∈ s.candidates t c := by
        intro k hk
        obtain ⟨_, hTrail, hLast⟩ := mem_select.mp hk
        obtain ⟨ns, n, rfl, hFront, hChosen⟩ := isTrail_concat.mp hTrail
        rw [List.getLast?_concat] at hLast
        cases hLast
        exact ⟨_, mem_contexts.mpr ⟨ns, hFront, rfl⟩,
          (choose_sublist s t _).subset hChosen⟩
      obtain ⟨c, hc, hic⟩ := hFrom i hi
      obtain ⟨d, hd, hjd⟩ := hFrom j hj
      by_cases hNil : steps = []
      · subst hNil
        obtain rfl := List.mem_singleton.mp hc
        obtain rfl := List.mem_singleton.mp hd
        rw [mem_candidates_none hTree hRoot] at hic hjd
        rw [hic.2 hChild, hjd.2 hChild]
      · obtain ⟨p, rfl⟩ := eq_some_of_mem_contexts hNil hc
        obtain ⟨q, rfl⟩ := eq_some_of_mem_contexts hNil hd
        rw [some_mem_contexts] at hc hd
        have hp := hTree.lt_of_reaches hRoot
          (reaches_of_mem_select hTree hRoot hc)
        have hq := hTree.lt_of_reaches hRoot
          (reaches_of_mem_select hTree hRoot hd)
        have hip :=
          ((mem_candidates_some hTree hp).mp hic).2.2 hChild
        have hjq :=
          ((mem_candidates_some hTree hq).mp hjd).2.2 hChild
        -- if a child reaches another one, its parent does as well
        cases hReaches with
        | refl => rfl
        | tail hPath hStep =>
            obtain rfl := hTree.single hStep hjq
            obtain rfl := ih (fun s' hs => hChildren s' (by simp [hs]))
              hc hd (.head hip hPath)
            have hLe := hTree.le_of_reaches hPath
            have hLt := (hTree.above hip).1
            omega

end PathQuery

end Whittle
