import Mathlib.Data.List.Chain
import Mathlib.Data.List.Induction
import Whittle.Proofs.Tree.Place
import Whittle.Query.Path

/-
  Which nodes a query selects.

  Key definitions include:
    * `Tree.IsPathTo`
    * `Step.IsTrail`
    * `Step.IsMarking`

  Main statements:
    * `PathQuery.mem_contexts`
    * `PathQuery.selects_iff`

  A trail is what one chooses step by step, each node from the
  context that the node before is.  The nodes that a query
  selects are the ends of its trails.  Without positions the
  trails to a node are the ways to mark the path to it.
-/

------------------------------------------------------------
-- Paths And Markings
------------------------------------------------------------

namespace Whittle

namespace Tree

/- A path goes from the root down to a node. -/
structure IsPathTo
    (t : Tree)
    (path : List Nat)
    (n : Nat) : Prop where
  first : path.head? = some 0
  linked : path.IsChain fun p c => c ∈ t.children p
  last : path.getLast? = some n

end Tree

namespace Step

/-
  Places on a path that fit the steps of a query.
    * `length` : there is a place for each step.
    * `rising` : the places are in order.
    * `last` : the last one is the end of the path.
    * `accepted` : the step of a place takes the node there.
    * `first` : a first child step stays at the root.
    * `next` : a later child step goes to the next node.
-/
structure IsMarking
    (t : Tree)
    (steps : List Step)
    (path places : List Nat) : Prop where
  length : places.length = steps.length
  rising : places.Pairwise (· < ·)
  last : places.getLast? = some (path.length - 1)
  accepted : ∀ (k : Nat) (s : Step) (j : Nat), steps[k]? = some s →
    places[k]? = some j → ∃ i, path[j]? = some i ∧ s.accepts t i = true
  first : ∀ (s : Step) (j : Nat), steps[0]? = some s → places[0]? = some j →
    s.descends = false → j = 0
  next : ∀ (k : Nat) (s : Step) (i j : Nat), steps[k + 1]? = some s →
    places[k]? = some i → places[k + 1]? = some j →
      s.descends = false → j = i + 1

/-
  Nodes that are chosen step by step, the first one from the
  root and each other one from the one before.
-/
inductive IsTrail
    (t : Tree) : List Step → List Nat → Prop
| nil : IsTrail t [] []
| concat
    {steps : List Step}
    {ns : List Nat}
    {s : Step}
    {n : Nat}
    (front : IsTrail t steps ns)
    (chosen : n ∈ s.choose t ns.getLast?) :
    IsTrail t (steps ++ [s]) (ns ++ [n])

end Step

end Whittle

------------------------------------------------------------
-- Keeping New Nodes
------------------------------------------------------------

namespace Whittle

namespace Step

theorem keepNew_append
    (seen ns ms : List Nat) :
    keepNew seen (ns ++ ms) = keepNew (keepNew seen ns) ms :=
  List.foldl_append

theorem keepNew_of_nodup
    {ns : List Nat}
    (hNodup : ns.Nodup)
    (seen : List Nat) :
    keepNew seen ns = seen ++ ns.filter (· ∉ seen) := by
  induction ns generalizing seen with
  | nil => simp [keepNew]
  | cons n rest ih =>
      obtain ⟨hn, hRest⟩ := List.nodup_cons.mp hNodup
      rw [← List.singleton_append, keepNew_append]
      by_cases hSeen : n ∈ seen
      · have hOne : keepNew seen [n] = seen := by
          simp [keepNew, hSeen]
        rw [hOne, ih hRest, List.singleton_append,
          List.filter_cons_of_neg (by simpa using hSeen)]
      · have hOne : keepNew seen [n] = seen ++ [n] := by
          simp [keepNew, hSeen]
        rw [hOne, ih hRest, List.singleton_append,
          List.filter_cons_of_pos (by simpa using hSeen)]
        have hSame :
            rest.filter (· ∉ seen ++ [n]) =
              rest.filter (· ∉ seen) := by
          apply List.filter_congr
          intro m hm
          have hOther : m ≠ n := fun h => hn (h ▸ hm)
          simp [hOther]
        rw [hSame, List.append_assoc, List.singleton_append]

theorem mem_keepNew
    {seen ns : List Nat}
    {n : Nat} :
    n ∈ keepNew seen ns ↔ n ∈ seen ∨ n ∈ ns := by
  induction ns generalizing seen with
  | nil => simp [keepNew]
  | cons m rest ih =>
      rw [← List.singleton_append, keepNew_append, ih,
        keepNew_of_nodup (List.nodup_singleton m)]
      by_cases hSeen : m ∈ seen
      · simp only [List.mem_append, List.mem_filter,
          List.mem_singleton, decide_eq_true_eq]
        constructor
        · rintro ((h | ⟨h, -⟩) | h)
          · exact .inl h
          · exact .inr (.inl h)
          · exact .inr (.inr h)
        · rintro (h | rfl | h)
          · exact .inl (.inl h)
          · exact .inl (.inl hSeen)
          · exact .inr h
      · simp [hSeen, or_assoc]

/-
  What is found from several contexts, where a relation holds
  between the nodes that are found first from one of them, and
  between these and all that were found from earlier ones.
-/
theorem pairwise_keepNew
    {R : Nat → Nat → Prop}
    {found : Option Nat → List Nat}
    {contexts : List (Option Nat)}
    (hNodup : ∀ c ∈ contexts, (found c).Nodup)
    (hRelated : ∀ before c after, contexts = before ++ c :: after →
      ((found c).filter (· ∉ before.flatMap found)).Pairwise R ∧
        ∀ m ∈ before.flatMap found, ∀ n ∈ found c,
          n ∉ before.flatMap found → R m n) :
    (keepNew [] (contexts.flatMap found)).Pairwise R := by
  induction contexts using List.reverseRecOn with
  | nil => exact List.Pairwise.nil
  | append_singleton before c ih =>
      have hKept : ∀ n, n ∈ keepNew [] (before.flatMap found) ↔
          n ∈ before.flatMap found := by
        intro n
        simp [mem_keepNew]
      obtain ⟨hOwn, hCross⟩ := hRelated before c [] rfl
      rw [List.flatMap_append, keepNew_append, List.flatMap_singleton,
        keepNew_of_nodup (hNodup c (by simp)), List.pairwise_append]
      simp only [hKept]
      refine ⟨?_, hOwn, ?_⟩
      · apply ih (fun c' hc' => hNodup c' (by simp [hc']))
        intro before' c' after' hSplit
        exact hRelated before' c' (after' ++ [c]) (by simp [hSplit])
      · intro m hm n hn
        obtain ⟨hFound, hNew⟩ := List.mem_filter.mp hn
        exact hCross m hm n hFound
          (of_decide_eq_true hNew)

/- No node is kept twice. -/
theorem nodup_keepNew
    {seen : List Nat}
    (hSeen : seen.Nodup)
    (ns : List Nat) :
    (keepNew seen ns).Nodup := by
  induction ns generalizing seen with
  | nil => exact hSeen
  | cons n rest ih =>
      rw [← List.singleton_append, keepNew_append,
        keepNew_of_nodup (List.nodup_singleton n)]
      refine ih (List.nodup_append.mpr
        ⟨hSeen, (List.nodup_singleton n).filter _, ?_⟩)
      rintro a ha _ hb rfl
      exact of_decide_eq_true (List.mem_filter.mp hb).2 ha

end Step

end Whittle

------------------------------------------------------------
-- Choices
------------------------------------------------------------

namespace Whittle

namespace Step

variable {t : Tree} {s : Step}

/- A step chooses among the nodes that it may choose from. -/
theorem choose_sublist
    (s : Step)
    (t : Tree)
    (c : Option Nat) :
    (s.choose t c).Sublist (s.candidates t c) := by
  have hFound :
      ((s.candidates t c).filter (s.accepts t)).Sublist
        (s.candidates t c) :=
    List.filter_sublist
  unfold choose
  dsimp only
  split
  · exact hFound
  · exact ((List.drop_sublist _ _).trans
      (List.take_sublist _ _)).trans hFound

theorem mem_choose
    (hPosition : s.position = none)
    {c : Option Nat}
    {n : Nat} :
    n ∈ s.choose t c ↔
      n ∈ s.candidates t c ∧ s.accepts t n = true := by
  unfold choose
  rw [hPosition]
  exact List.mem_filter

theorem mem_choose_of_position
    {k : Nat}
    (hPosition : s.position = some k)
    {c : Option Nat}
    {n : Nat} :
    n ∈ s.choose t c ↔
      0 < k ∧
        ((s.candidates t c).filter (s.accepts t))[k - 1]? = some n := by
  unfold choose
  rw [hPosition]
  dsimp only
  rw [List.mem_iff_getElem?]
  simp only [List.getElem?_drop, List.getElem?_take]
  constructor
  · rintro ⟨i, hAt⟩
    split at hAt
    · rename_i hLt
      obtain rfl : i = 0 := by omega
      exact ⟨by omega, hAt⟩
    · cases hAt
  · rintro ⟨hPos, hAt⟩
    refine ⟨0, ?_⟩
    rw [Nat.add_zero, if_pos (by omega)]
    exact hAt

theorem mem_candidates_none
    (hTree : t.IsTree)
    (hRoot : 0 < t.size)
    {n : Nat} :
    n ∈ s.candidates t none ↔
      t.Reaches 0 n ∧ (s.descends = false → n = 0) := by
  unfold candidates
  cases s.descends with
  | true => simp [hTree.mem_walk hRoot]
  | false =>
      simp only [Bool.false_eq_true, if_false, List.mem_singleton,
        true_implies]
      constructor
      · rintro rfl
        exact ⟨.refl, rfl⟩
      · exact fun h => h.2

/- Elsewhere it may choose what lies below, in order. -/
theorem candidates_sublist
    (hTree : t.IsTree)
    {i : Nat}
    (hSize : i < t.size) :
    (s.candidates t (some i)).Sublist ((t.preorder i).drop 1) := by
  unfold candidates
  cases s.descends with
  | true =>
      rw [← hTree.walk_eq hSize]
      exact List.Sublist.refl _
  | false =>
      simp only [Bool.false_eq_true, if_false]
      rw [hTree.preorder_eq, List.drop_one, List.tail_cons]
      generalize t.children i = cs
      induction cs with
      | nil => exact List.Sublist.refl _
      | cons c rest ih =>
          rw [List.flatMap_cons, hTree.preorder_eq c]
          exact (ih.trans (List.sublist_append_right _ _)).cons_cons c

theorem mem_candidates_some
    (hTree : t.IsTree)
    {i n : Nat}
    (hSize : i < t.size) :
    n ∈ s.candidates t (some i) ↔
      t.Reaches i n ∧ i ≠ n ∧
        (s.descends = false → n ∈ t.children i) := by
  unfold candidates
  cases s.descends with
  | true =>
      have hNodup := hTree.nodup_walk hSize
      have hMem := hTree.mem_walk (j := n) hSize
      rw [hTree.walk_eq hSize, hTree.preorder_eq] at hNodup hMem
      dsimp only
      rw [if_pos rfl, hTree.walk_eq hSize, hTree.preorder_eq,
        List.drop_one, List.tail_cons, ← hMem, List.mem_cons]
      have hOwn := (List.nodup_cons.mp hNodup).1
      constructor
      · intro hn
        refine ⟨.inr hn, ?_, fun h => nomatch h⟩
        rintro rfl
        exact hOwn hn
      · rintro ⟨rfl | hn, hNe, -⟩
        · exact absurd rfl hNe
        · exact hn
  | false =>
      simp only [Bool.false_eq_true, if_false, true_implies]
      constructor
      · intro hChild
        exact
          ⟨.single hChild, Nat.ne_of_lt (hTree.above hChild).1,
            hChild⟩
      · exact fun h => h.2.2

end Step

end Whittle

------------------------------------------------------------
-- Contexts And Trails
------------------------------------------------------------

namespace Whittle

namespace Step

variable {t : Tree}

theorem isTrail_nil
    {ns : List Nat} :
    IsTrail t [] ns ↔ ns = [] := by
  constructor
  · intro hTrail
    generalize hSteps : ([] : List Step) = steps at hTrail
    cases hTrail with
    | nil => rfl
    | concat => simp at hSteps
  · rintro rfl
    exact .nil

theorem isTrail_concat
    {steps : List Step}
    {s : Step}
    {ms : List Nat} :
    IsTrail t (steps ++ [s]) ms ↔
      ∃ ns n, ms = ns ++ [n] ∧ IsTrail t steps ns ∧
        n ∈ s.choose t ns.getLast? := by
  constructor
  · intro hTrail
    generalize hSteps : steps ++ [s] = all at hTrail
    cases hTrail with
    | nil => simp at hSteps
    | concat hFront hChosen =>
        obtain ⟨rfl, hLast⟩ := List.append_inj' hSteps rfl
        cases hLast
        exact ⟨_, _, rfl, hFront, hChosen⟩
  · rintro ⟨ns, n, rfl, hFront, hChosen⟩
    exact hFront.concat hChosen

theorem IsTrail.length_eq
    {steps : List Step}
    {ns : List Nat}
    (hTrail : IsTrail t steps ns) :
    ns.length = steps.length := by
  induction hTrail with
  | nil => rfl
  | concat _ _ ih =>
      rw [List.length_append, List.length_append, ih]
      rfl

/- The nodes of a trail lie below the root. -/
theorem IsTrail.reaches
    (hTree : t.IsTree)
    (hRoot : 0 < t.size)
    {steps : List Step}
    {ns : List Nat}
    (hTrail : IsTrail t steps ns) :
    ∀ n ∈ ns.getLast?, t.Reaches 0 n := by
  induction hTrail with
  | nil => exact fun n hn => nomatch hn
  | @concat steps ns s n hFront hChosen ih =>
      intro m hm
      rw [List.getLast?_concat] at hm
      cases hm
      have hCandidate := (choose_sublist s t _).subset hChosen
      cases hLast : ns.getLast? with
      | none =>
          rw [hLast] at hCandidate
          exact ((mem_candidates_none hTree hRoot).mp hCandidate).1
      | some i =>
          rw [hLast] at hCandidate
          have hi := ih i hLast
          have hSize := hTree.lt_of_reaches hRoot hi
          exact hi.trans
            ((mem_candidates_some hTree hSize).mp hCandidate).1

end Step

namespace PathQuery

open Step

variable {t : Tree}

/- The contexts that some steps lead to. -/
def contexts
    (steps : List Step)
    (t : Tree) : List (Option Nat) :=
  steps.foldl (fun contexts s => s.apply t contexts) [none]

theorem contexts_concat
    (steps : List Step)
    (s : Step)
    (t : Tree) :
    contexts (steps ++ [s]) t =
      (keepNew [] ((contexts steps t).flatMap (s.choose t))).map
        some :=
  List.foldl_concat ..

theorem contexts_concat_of_nodup
    {steps : List Step}
    {s : Step}
    (ns : List Nat)
    (hChosen : (contexts steps t).flatMap (s.choose t) = ns)
    (hNodup : ns.Nodup) :
    contexts (steps ++ [s]) t = ns.map some := by
  rw [contexts_concat, hChosen, keepNew_of_nodup hNodup]
  simp

theorem mem_contexts
    {steps : List Step}
    {c : Option Nat} :
    c ∈ contexts steps t ↔
      ∃ ns, IsTrail t steps ns ∧ ns.getLast? = c := by
  induction steps using List.reverseRecOn generalizing c with
  | nil =>
      simp only [isTrail_nil, exists_eq_left]
      exact List.mem_singleton.trans eq_comm
  | append_singleton steps s ih =>
      simp only [isTrail_concat, contexts_concat, List.mem_map,
        mem_keepNew, List.mem_flatMap, ih, List.not_mem_nil, false_or]
      constructor
      · rintro ⟨n, ⟨_, ⟨ns, hTrail, rfl⟩, hChosen⟩, rfl⟩
        exact
          ⟨ns ++ [n], ⟨ns, n, rfl, hTrail, hChosen⟩,
            List.getLast?_concat⟩
      · rintro ⟨_, ⟨ns, n, rfl, hTrail, hChosen⟩, rfl⟩
        exact
          ⟨n, ⟨ns.getLast?, ⟨ns, hTrail, rfl⟩, hChosen⟩,
            List.getLast?_concat.symm⟩

/- A query selects the contexts that its steps lead to. -/
theorem select_eq
    (steps : List Step)
    (t : Tree) :
    select steps t = (contexts steps t).filterMap id :=
  rfl

theorem mem_select
    {steps : List Step}
    {n : Nat} :
    n ∈ select steps t ↔
      ∃ ns, IsTrail t steps ns ∧ ns.getLast? = some n := by
  rw [select_eq, ← mem_contexts, List.mem_filterMap]
  simp

/- No node is selected twice. -/
theorem nodup_select
    (steps : List Step)
    (t : Tree) :
    (select steps t).Nodup := by
  rw [select_eq]
  induction steps using List.reverseRecOn with
  | nil => exact List.nodup_nil
  | append_singleton steps s _ =>
      rw [contexts_concat, List.filterMap_map]
      simpa using nodup_keepNew List.nodup_nil _

end PathQuery

end Whittle

------------------------------------------------------------
-- Paths
------------------------------------------------------------

namespace Whittle

namespace Tree

variable {t : Tree} {path : List Nat} {i n : Nat}

theorem isPathTo_root
    (t : Tree) :
    t.IsPathTo [0] 0 :=
  ⟨rfl, List.isChain_singleton _, rfl⟩

/- A path goes on to the children of its end. -/
theorem IsPathTo.child
    (hPath : t.IsPathTo path i)
    (hChild : n ∈ t.children i) :
    t.IsPathTo (path ++ [n]) n where
  first := by
    rw [List.head?_append, hPath.first]
    rfl
  linked := by
    refine List.isChain_append.mpr
      ⟨hPath.linked, List.isChain_singleton _, ?_⟩
    intro a ha b hb
    rw [hPath.last] at ha
    cases ha
    cases hb
    exact hChild
  last := List.getLast?_concat

/- A path goes on to all that lies below its end. -/
theorem IsPathTo.extend
    (hPath : t.IsPathTo path i)
    (hReaches : t.Reaches i n) :
    ∃ tail, t.IsPathTo (path ++ tail) n ∧ (i ≠ n → tail ≠ []) := by
  induction hReaches with
  | refl =>
      exact ⟨[], by rwa [List.append_nil], fun hNe => absurd rfl hNe⟩
  | @tail p c _ hChild ih =>
      obtain ⟨tail, hLonger, -⟩ := ih
      refine ⟨tail ++ [c], ?_, fun _ => by simp⟩
      rw [← List.append_assoc]
      exact hLonger.child hChild

/- Each node on a path lies above those after it. -/
theorem IsPathTo.pairwise
    (hTree : t.IsTree)
    (hPath : t.IsPathTo path n) :
    path.Pairwise fun a b => t.Reaches a b ∧ a < b := by
  have : Trans (fun a b => t.Reaches a b ∧ a < b)
      (fun a b => t.Reaches a b ∧ a < b)
      (fun a b => t.Reaches a b ∧ a < b) :=
    ⟨fun hab hbc => ⟨hab.1.trans hbc.1, hab.2.trans hbc.2⟩⟩
  refine (hPath.linked.imp ?_).pairwise
  intro a b hChild
  exact ⟨.single hChild, (hTree.above hChild).1⟩

/- The start of a path is a path. -/
theorem IsPathTo.take
    (hPath : t.IsPathTo path n)
    {k : Nat}
    (hAt : path[k]? = some i) :
    t.IsPathTo (path.take (k + 1)) i where
  first := by
    rw [List.head?_take, if_neg (Nat.succ_ne_zero k), hPath.first]
  linked := hPath.linked.take (k + 1)
  last := by
    rw [List.take_add_one, hAt]
    exact List.getLast?_concat

theorem IsPathTo.getElem?_last
    (hPath : t.IsPathTo path n) :
    path[path.length - 1]? = some n := by
  rw [← List.getLast?_eq_getElem?, hPath.last]

/- The end of a path lies below the root. -/
theorem IsPathTo.reaches
    (hTree : t.IsTree)
    (hPath : t.IsPathTo path n) :
    t.Reaches 0 n := by
  have hFirst := hPath.first
  have hPairs := hPath.pairwise hTree
  have hMem := List.mem_of_getLast? hPath.last
  cases path with
  | nil => cases hFirst
  | cons a rest =>
      cases hFirst
      rcases List.mem_cons.mp hMem with rfl | hRest
      · exact .refl
      · exact (List.rel_of_pairwise_cons hPairs hRest).1

end Tree

end Whittle

------------------------------------------------------------
-- Markings
------------------------------------------------------------

namespace Whittle

namespace Step

variable {t : Tree} {steps : List Step} {s : Step}
variable {path places : List Nat} {n : Nat}

/- A first step marks the end of a path. -/
theorem isMarking_single
    (hPath : t.IsPathTo path n)
    (hAccepts : s.accepts t n = true)
    (hChild : s.descends = false → path.length = 1) :
    IsMarking t [s] path [path.length - 1] where
  length := rfl
  rising := List.pairwise_singleton _ _
  last := rfl
  accepted k s' j hStep hPlace := by
    obtain ⟨rfl, rfl⟩ : k = 0 ∧ s' = s := by
      cases k with
      | zero => exact ⟨rfl, (Option.some.inj hStep).symm⟩
      | succ k => simp at hStep
    cases hPlace
    exact ⟨n, hPath.getElem?_last, hAccepts⟩
  first s' j hStep hPlace hDescends := by
    cases hStep
    cases hPlace
    have hOne := hChild hDescends
    omega
  next k s' i j hStep := by simp at hStep

/- One more step marks the end of a longer path. -/
theorem IsMarking.concat
    (hMarking : IsMarking t steps path places)
    {tail : List Nat}
    (hSome : path ≠ [])
    (hTail : tail ≠ [])
    (hPath : t.IsPathTo (path ++ tail) n)
    (hAccepts : s.accepts t n = true)
    (hChild : s.descends = false → tail.length = 1) :
    IsMarking t (steps ++ [s]) (path ++ tail)
      (places ++ [(path ++ tail).length - 1]) := by
  have hSize := List.length_pos_iff.mpr hSome
  have hMore := List.length_pos_iff.mpr hTail
  have hLength : (path ++ tail).length = path.length + tail.length :=
    List.length_append
  have hPlaces : ∀ j ∈ places, j < path.length := by
    intro j hj
    obtain ⟨k, hPlace⟩ := List.mem_iff_getElem?.mp hj
    have hk : k < steps.length := by
      rw [← hMarking.length]
      exact (List.getElem?_eq_some_iff.mp hPlace).1
    obtain ⟨i, hAt, -⟩ :=
      hMarking.accepted k steps[k] j (List.getElem?_eq_getElem hk)
        hPlace
    exact (List.getElem?_eq_some_iff.mp hAt).1
  have hSteps : 0 < steps.length := by
    rw [← hMarking.length]
    have hLast := hMarking.last
    cases places with
    | nil => cases hLast
    | cons => exact Nat.succ_pos _
  have hLengths := hMarking.length
  refine
    { length := by simp [hLengths]
      rising := ?_
      last := List.getLast?_concat
      accepted := ?_
      first := ?_
      next := ?_ }
  · refine List.pairwise_append.mpr
      ⟨hMarking.rising, List.pairwise_singleton _ _, ?_⟩
    intro j hj l hl
    rw [List.mem_singleton.mp hl]
    have := hPlaces j hj
    omega
  · intro k s' j hStep hPlace
    by_cases hk : k < steps.length
    · rw [List.getElem?_append_left hk] at hStep
      rw [List.getElem?_append_left (by omega)] at hPlace
      obtain ⟨i, hAt, hTaken⟩ := hMarking.accepted k s' j hStep hPlace
      refine ⟨i, ?_, hTaken⟩
      rw [List.getElem?_append_left
        (hPlaces j (List.mem_of_getElem? hPlace))]
      exact hAt
    · have hEnd : k = steps.length := by
        have := (List.getElem?_eq_some_iff.mp hStep).1
        rw [List.length_append, List.length_singleton] at this
        omega
      rw [hEnd, List.getElem?_concat_length] at hStep
      rw [hEnd, ← hLengths, List.getElem?_concat_length] at hPlace
      cases hStep
      cases hPlace
      exact ⟨n, hPath.getElem?_last, hAccepts⟩
  · intro s' j hStep hPlace
    rw [List.getElem?_append_left hSteps] at hStep
    rw [List.getElem?_append_left (by omega)] at hPlace
    exact hMarking.first s' j hStep hPlace
  · intro k s' i j hStep hPlace hPlace' hDescends
    by_cases hk : k + 1 < steps.length
    · rw [List.getElem?_append_left hk] at hStep
      rw [List.getElem?_append_left (by omega)] at hPlace hPlace'
      exact hMarking.next k s' i j hStep hPlace hPlace' hDescends
    · have hEnd : k + 1 = steps.length := by
        have := (List.getElem?_eq_some_iff.mp hStep).1
        rw [List.length_append, List.length_singleton] at this
        omega
      rw [hEnd, List.getElem?_concat_length] at hStep
      rw [hEnd, ← hLengths, List.getElem?_concat_length] at hPlace'
      rw [List.getElem?_append_left (by omega)] at hPlace
      cases hStep
      cases hPlace'
      have hLast := hMarking.last
      rw [List.getLast?_eq_getElem?,
        show places.length - 1 = k by omega, hPlace] at hLast
      cases hLast
      have hOne := hChild hDescends
      omega

/- The last step of a marking takes the end of the path. -/
theorem IsMarking.accepts_last
    (hMarking : IsMarking t (steps ++ [s]) path places)
    (hPath : t.IsPathTo path n) :
    places[steps.length]? = some (path.length - 1) ∧
      s.accepts t n = true := by
  have hLength := hMarking.length
  rw [List.length_append, List.length_singleton] at hLength
  have hPlace : places[steps.length]? = some (path.length - 1) := by
    rw [← hMarking.last, List.getLast?_eq_getElem?, hLength,
      Nat.add_sub_cancel]
  obtain ⟨i, hAt, hAccepts⟩ :=
    hMarking.accepted _ s _ List.getElem?_concat_length hPlace
  rw [hPath.getElem?_last] at hAt
  cases hAt
  exact ⟨hPlace, hAccepts⟩

/- Without its last place a marking ends at the place before. -/
theorem IsMarking.front
    (hMarking : IsMarking t (steps ++ [s]) path places)
    (hPath : t.IsPathTo path n)
    (hSome : steps ≠ []) :
    ∃ front k i, path[k]? = some i ∧ k < path.length - 1 ∧
      IsMarking t steps (path.take (k + 1)) front ∧
      (s.descends = false → path.length - 1 = k + 1) := by
  have hSteps := List.length_pos_iff.mpr hSome
  have hLength := hMarking.length
  rw [List.length_append, List.length_singleton] at hLength
  obtain ⟨hLast, -⟩ := hMarking.accepts_last hPath
  have hRising := List.pairwise_iff_getElem.mp hMarking.rising
  -- the place before the last one
  obtain ⟨k, hk⟩ : ∃ k, places[steps.length - 1]? = some k :=
    ⟨_, List.getElem?_eq_getElem (by omega)⟩
  have hEarlier : ∀ l j, l < steps.length → places[l]? = some j →
      j ≤ k := by
    intro l j hl hj
    obtain ⟨hlSize, rfl⟩ := List.getElem?_eq_some_iff.mp hj
    obtain ⟨hkSize, rfl⟩ := List.getElem?_eq_some_iff.mp hk
    rcases Nat.lt_or_ge l (steps.length - 1) with hLt | hGe
    · exact Nat.le_of_lt (hRising l _ hlSize hkSize hLt)
    · have hSame : l = steps.length - 1 := by omega
      subst hSame
      exact Nat.le_refl _
  have hkLast : k < path.length - 1 := by
    obtain ⟨hkSize, rfl⟩ := List.getElem?_eq_some_iff.mp hk
    obtain ⟨hSize, hEq⟩ := List.getElem?_eq_some_iff.mp hLast
    rw [← hEq]
    exact hRising _ _ hkSize hSize (by omega)
  have hStep : ∀ l, l < steps.length →
      (steps ++ [s])[l]? = steps[l]? :=
    fun l hl => List.getElem?_append_left hl
  have hPlace : ∀ l, l < steps.length →
      (places.take steps.length)[l]? = places[l]? :=
    fun l hl => List.getElem?_take_of_lt hl
  have hShort : (path.take (k + 1)).length = k + 1 := by
    rw [List.length_take]
    omega
  refine
    ⟨places.take steps.length, k, path[k],
      List.getElem?_eq_getElem (by omega), hkLast, ?_, ?_⟩
  · refine
      { length := by rw [List.length_take]; omega
        rising := hMarking.rising.sublist (List.take_sublist _ _)
        last := ?_
        accepted := ?_
        first := ?_
        next := ?_ }
    · rw [List.getLast?_eq_getElem?, List.length_take, hShort,
        Nat.min_eq_left (by omega), hPlace _ (by omega), hk]
      rfl
    · intro l s' j hStep' hPlace'
      have hl := (List.getElem?_eq_some_iff.mp hStep').1
      rw [hPlace l hl] at hPlace'
      rw [← hStep l hl] at hStep'
      have hjk := hEarlier l j hl hPlace'
      rw [List.getElem?_take_of_lt (by omega)]
      exact hMarking.accepted l s' j hStep' hPlace'
    · intro s' j hStep' hPlace'
      rw [hPlace 0 hSteps] at hPlace'
      rw [← hStep 0 hSteps] at hStep'
      exact hMarking.first s' j hStep' hPlace'
    · intro l s' i j hStep' hi hj hDescends
      have hl := (List.getElem?_eq_some_iff.mp hStep').1
      rw [hPlace l (by omega)] at hi
      rw [hPlace (l + 1) hl] at hj
      rw [← hStep (l + 1) hl] at hStep'
      exact hMarking.next l s' i j hStep' hi hj hDescends
  · intro hDescends
    refine hMarking.next (steps.length - 1) s k _ ?_ hk ?_ hDescends
    · rw [Nat.sub_add_cancel hSteps]
      exact List.getElem?_concat_length
    · rw [Nat.sub_add_cancel hSteps]
      exact hLast

theorem not_isMarking_nil :
    ¬ IsMarking t [] path places := by
  intro hMarking
  have hLast := hMarking.last
  rw [List.eq_nil_of_length_eq_zero hMarking.length] at hLast
  cases hLast

end Step

end Whittle

------------------------------------------------------------
-- Trails And Markings
------------------------------------------------------------

namespace Whittle

namespace Step

variable {t : Tree} {steps : List Step} {n : Nat}

/- The path to the end of a trail can be marked. -/
theorem IsTrail.exists_isMarking
    (hTree : t.IsTree)
    (hRoot : 0 < t.size)
    {ns : List Nat}
    (hTrail : IsTrail t steps ns)
    (hFree : ∀ s ∈ steps, s.position = none)
    (hLast : ns.getLast? = some n) :
    ∃ path places, t.IsPathTo path n ∧
      IsMarking t steps path places := by
  induction hTrail generalizing n with
  | nil => cases hLast
  | @concat steps ns s m hFront hChosen ih =>
      rw [List.getLast?_concat] at hLast
      cases hLast
      rw [mem_choose (hFree s (by simp))] at hChosen
      obtain ⟨hCandidate, hAccepts⟩ := hChosen
      cases hBefore : ns.getLast? with
      | none =>
          rw [hBefore, mem_candidates_none hTree hRoot] at hCandidate
          obtain ⟨hReaches, hChild⟩ := hCandidate
          have hNil : steps = [] := by
            rw [List.getLast?_eq_none_iff] at hBefore
            rw [← List.length_eq_zero_iff, ← hFront.length_eq, hBefore]
            rfl
          subst hNil
          cases hDescends : s.descends with
          | false =>
              obtain rfl := hChild hDescends
              have hPath := t.isPathTo_root
              exact ⟨[0], _, hPath, isMarking_single hPath hAccepts
                fun _ => rfl⟩
          | true =>
              obtain ⟨tail, hPath, -⟩ := t.isPathTo_root.extend hReaches
              refine ⟨_, _, hPath, isMarking_single hPath hAccepts ?_⟩
              intro hOther
              rw [hDescends] at hOther
              cases hOther
      | some i =>
          have hi := hFront.reaches hTree hRoot i hBefore
          have hSize := hTree.lt_of_reaches hRoot hi
          rw [hBefore, mem_candidates_some hTree hSize] at hCandidate
          obtain ⟨hReaches, hNe, hChild⟩ := hCandidate
          obtain ⟨path, places, hPath, hMarking⟩ :=
            ih (fun s hs => hFree s (by simp [hs])) hBefore
          have hSome : path ≠ [] := by
            rintro rfl
            cases hPath.first
          cases hDescends : s.descends with
          | false =>
              have hLonger := hPath.child (hChild hDescends)
              exact ⟨_, _, hLonger, hMarking.concat hSome (by simp)
                hLonger hAccepts fun _ => rfl⟩
          | true =>
              obtain ⟨tail, hLonger, hTail⟩ := hPath.extend hReaches
              refine ⟨_, _, hLonger, hMarking.concat hSome (hTail hNe)
                hLonger hAccepts ?_⟩
              intro hOther
              rw [hDescends] at hOther
              cases hOther

/- A path that is marked ends where a trail does. -/
theorem IsMarking.exists_isTrail
    (hTree : t.IsTree)
    (hRoot : 0 < t.size)
    {path places : List Nat}
    (hMarking : IsMarking t steps path places)
    (hFree : ∀ s ∈ steps, s.position = none)
    (hPath : t.IsPathTo path n) :
    ∃ ns, IsTrail t steps ns ∧ ns.getLast? = some n := by
  induction steps using List.reverseRecOn generalizing path places n with
  | nil => exact absurd hMarking not_isMarking_nil
  | append_singleton steps s ih =>
      obtain ⟨hLast, hAccepts⟩ := hMarking.accepts_last hPath
      have hStepFree := hFree s (by simp)
      by_cases hNil : steps = []
      · subst hNil
        refine ⟨[n], IsTrail.nil.concat ?_, rfl⟩
        rw [mem_choose hStepFree]
        refine ⟨(mem_candidates_none hTree hRoot).mpr
          ⟨hPath.reaches hTree, ?_⟩, hAccepts⟩
        intro hDescends
        have hZero := hMarking.first s _ rfl hLast hDescends
        have hEnd := hPath.getElem?_last
        rw [hZero, ← List.head?_eq_getElem?, hPath.first] at hEnd
        exact (Option.some.inj hEnd).symm
      · obtain ⟨front, k, i, hAt, hLt, hFront, hChild⟩ :=
          hMarking.front hPath hNil
        have hUpper := hPath.take hAt
        obtain ⟨ns, hTrail, hEnd⟩ :=
          ih hFront (fun s hs => hFree s (by simp [hs])) hUpper
        refine ⟨ns ++ [n], hTrail.concat ?_, List.getLast?_concat⟩
        have hi := hUpper.reaches hTree
        have hSize := hTree.lt_of_reaches hRoot hi
        obtain ⟨hkSize, rfl⟩ := List.getElem?_eq_some_iff.mp hAt
        obtain ⟨hnSize, hn⟩ :=
          List.getElem?_eq_some_iff.mp hPath.getElem?_last
        obtain ⟨hReaches, hLess⟩ :=
          List.pairwise_iff_getElem.mp (hPath.pairwise hTree) _ _
            hkSize hnSize hLt
        rw [hn] at hReaches hLess
        rw [hEnd, mem_choose hStepFree, mem_candidates_some hTree hSize]
        refine ⟨⟨hReaches, Nat.ne_of_lt hLess, ?_⟩, hAccepts⟩
        intro hDescends
        have hNext := hChild hDescends
        have hLinked :=
          List.isChain_iff_getElem.mp hPath.linked k (by omega)
        rwa [show path[k + 1] = n by rw [← hn]; congr 1; omega]
          at hLinked

end Step

end Whittle

------------------------------------------------------------
-- Selection
------------------------------------------------------------

namespace Whittle

namespace PathQuery

open Step

variable {t : Tree}

/-
  A query without positions selects a node just if the path to
  it can be marked: with a place for each step, in order, the
  last one at the node, each step taking the node at its place,
  a first child step at the root and each later one right below
  the place before.  No query selects a node twice, or a node
  that is not in the walk of the root.
-/
theorem selects_iff
    (hTree : t.IsTree)
    (hRoot : 0 < t.size)
    (q : PathQuery) :
    ((∀ s ∈ q.steps, s.position = none) →
      ∀ n, n ∈ q.evaluate t ↔
        ∃ path places, t.IsPathTo path n ∧
          IsMarking t q.steps path places) ∧
      (q.evaluate t).Nodup ∧ q.evaluate t ⊆ t.walk 0 := by
  refine ⟨?_, nodup_select q.steps t, ?_⟩
  · intro hFree n
    unfold evaluate
    rw [mem_select]
    constructor
    · rintro ⟨ns, hTrail, hLast⟩
      exact hTrail.exists_isMarking hTree hRoot hFree hLast
    · rintro ⟨path, places, hPath, hMarking⟩
      exact hMarking.exists_isTrail hTree hRoot hFree hPath
  · intro n hn
    obtain ⟨ns, hTrail, hLast⟩ := mem_select.mp hn
    exact (hTree.mem_walk hRoot).mpr
      (hTrail.reaches hTree hRoot n hLast)

/- A function in a function, with a statement in each. -/
def nested : Tree :=
  let module := ((Tree.empty 0 "nested").add "Module" default none
    none).2
  let outer := (module.add "FunctionDef" default (some ⟨0, 0⟩)
    (some "f")).2
  let inner := (outer.add "FunctionDef" default (some ⟨0, 1⟩)
    (some "g")).2
  let first := (inner.add "Pass" default (some ⟨0, 2⟩) none).2
  (first.add "Pass" default (some ⟨0, 1⟩) none).2

theorem isTree_nested :
    nested.IsTree := by
  have hAdd : ∀ {t : Tree} (kind : String) (image : Option String)
      (p : Nat), t.IsTree → t.identity = 0 → p < t.size →
        (t.add kind default (some ⟨0, p⟩) image).2.IsTree := by
    intro t kind image p hTree hIdentity hp
    refine Tree.isTree_add hTree kind default image ?_
    rintro _ hq
    cases hq
    exact ⟨hIdentity.symm, hp⟩
  unfold nested
  refine hAdd _ _ _ (hAdd _ _ _ (hAdd _ _ _ (hAdd _ _ _ ?_
    rfl ?_) rfl ?_) rfl ?_) rfl ?_
  · exact Tree.isTree_add (Tree.isTree_empty 0 "nested") _ _ _
      (fun _ hp => by cases hp)
  all_goals decide

/- The statements right in functions, and not the functions. -/
theorem selects_iff_nested :
    let q : PathQuery :=
      ⟨"//FunctionDef/Pass",
        [⟨true, some "FunctionDef", none, none⟩,
          ⟨false, some "Pass", none, none⟩]⟩
    nested.IsTree ∧ 0 < nested.size ∧
      (∀ s ∈ q.steps, s.position = none) ∧
      (∃ path places, nested.IsPathTo path 3 ∧
        IsMarking nested q.steps path places) ∧
      (¬ ∃ path places, nested.IsPathTo path 2 ∧
        IsMarking nested q.steps path places) ∧
      (q.evaluate nested).Nodup ∧
        q.evaluate nested ⊆ nested.walk 0 := by
  intro q
  have hRoot : 0 < nested.size := by decide
  have hFree : ∀ s ∈ q.steps, s.position = none := by decide
  obtain ⟨hSelects, hRest⟩ := selects_iff isTree_nested hRoot q
  refine ⟨isTree_nested, hRoot, hFree, ?_, ?_, hRest⟩
  · exact (hSelects hFree 3).mp (by decide +kernel)
  · rw [← hSelects hFree 2]
    decide +kernel

end PathQuery

end Whittle
