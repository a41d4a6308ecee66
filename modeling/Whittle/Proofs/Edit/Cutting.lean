import Mathlib.Data.Nat.Init
import Whittle.Edit.Cut
import Whittle.Proofs.Edit.Erasing
import Whittle.Proofs.Text.Weight
import Whittle.Proofs.Tree.Hull
import Whittle.Proofs.Tree.Walk

/-
  What is left of a text when nodes of its tree are cut.

  Key definitions include:
    * `Region.covers`
    * `Span.IsInside`
    * `Tree.topsFrom`

  Main statements:
    * `Region.offsetAt_le_of_le`
    * `Tree.IsTree.exists_top`
    * `Tree.pairwise_topsFrom`
    * `cutNodes_eq`

  Spans count lines and columns from one and include their
  last column; regions count from zero and do not.  Only the
  topmost nodes are cut, so that their regions are apart.
-/

------------------------------------------------------------
-- Offsets Of Positions
------------------------------------------------------------

namespace Whittle

namespace Region

/- The offset of a column of a line that is in the text. -/
def offsetAt
    (ls : List Text)
    (line column : Int) : Nat :=
  lineOffset ls line.toNat +
    min column.toNat ((ls[line.toNat]?).getD []).length

/- The offset of a column of a line that is in the text. -/
theorem offsetOf_eq
    {ls : List Text}
    {line : Int}
    (hStart : 0 ≤ line)
    (hStop : line < ls.length)
    (column : Int) :
    offsetOf ls line column = .ok (offsetAt ls line column) := by
  have hLine : ls[line.toNat]? = some (ls.get ⟨line.toNat, by omega⟩) :=
    List.getElem?_eq_getElem (by omega)
  unfold offsetOf offsetAt
  rw [if_neg (by omega), hLine]
  rfl

theorem lineOffset_succ
    (ls : List Text)
    {line : Nat}
    (hLine : line < ls.length) :
    lineOffset ls (line + 1) =
      lineOffset ls line +
        (((ls[line]?).getD []).length + 1) := by
  unfold lineOffset
  rw [List.take_add_one, List.map_append, total_append,
    List.getElem?_eq_getElem hLine]
  rfl

/- Later lines start later. -/
theorem lineOffset_le
    (ls : List Text)
    {a b : Nat}
    (hLe : a ≤ b)
    (hLine : b < ls.length) :
    lineOffset ls a ≤ lineOffset ls b := by
  induction b, hLe using Nat.le_induction with
  | base => exact Nat.le_refl _
  | succ b hLe ih =>
      rw [lineOffset_succ ls (by omega)]
      have hBefore := ih (by omega)
      omega

/- Columns have smaller offsets than those of later lines. -/
theorem offsetAt_le_of_lt
    {ls : List Text}
    {a b : Int}
    (hStart : 0 ≤ a)
    (hLt : a < b)
    (hStop : b < ls.length)
    (c d : Int) :
    offsetAt ls a c ≤ offsetAt ls b d := by
  have hLine : a.toNat < ls.length := by omega
  have hLe : a.toNat + 1 ≤ b.toNat := by omega
  have hNext := lineOffset_succ ls hLine
  have hLater := lineOffset_le ls hLe (by omega)
  unfold offsetAt
  omega

/- Smaller columns of a line have smaller offsets. -/
theorem offsetAt_le_of_le
    (ls : List Text)
    (a : Int)
    {c d : Int}
    (hLe : c ≤ d) :
    offsetAt ls a c ≤ offsetAt ls a d := by
  unfold offsetAt
  omega

end Region

end Whittle

------------------------------------------------------------
-- Offsets Of Spans
------------------------------------------------------------

namespace Whittle

namespace Span

/- The lines of a span are lines of the text. -/
def IsOnLines
    (s : Span)
    (ls : List Text) : Prop :=
  (1 ≤ s.first.line ∧ s.first.line ≤ ls.length) ∧
    (1 ≤ s.last.line ∧ s.last.line ≤ ls.length)

instance
    (s : Span)
    (ls : List Text) : Decidable (s.IsOnLines ls) := by
  unfold IsOnLines
  infer_instance

/- A span lies inside of another one. -/
def IsInside
    (s outer : Span) : Prop :=
  outer.first.atMost s.first ∧ s.last.atMost outer.last

instance
    (s outer : Span) : Decidable (s.IsInside outer) := by
  unfold IsInside
  infer_instance

/- One of the two spans ends before the other begins. -/
def IsApart
    (s t : Span) : Prop :=
  s.last.before t.first ∨ t.last.before s.first

instance
    (s t : Span) : Decidable (s.IsApart t) := by
  unfold IsApart
  infer_instance

/- The offset of the first character of a span. -/
def start
    (s : Span)
    (ls : List Text) : Nat :=
  Region.offsetAt ls (s.first.line - 1) (s.first.column - 1)

/- The offset after the last character of a span. -/
def stop
    (s : Span)
    (ls : List Text) : Nat :=
  Region.offsetAt ls (s.last.line - 1) s.last.column

/- A span with the offsets of its characters. -/
def located
    (s : Span)
    (ls : List Text) : Region.Located :=
  ⟨s.start ls, s.stop ls, s.region⟩

variable {ls : List Text} {s t : Span}

theorem isInside_refl
    (s : Span) :
    s.IsInside s := by
  constructor <;> rw [Position.atMost_iff] <;> omega

theorem IsInside.trans
    {outer : Span}
    (hInner : s.IsInside t)
    (hOuter : t.IsInside outer) :
    s.IsInside outer := by
  unfold IsInside at *
  simp only [Position.atMost_iff] at *
  omega

/- Around a proper span there are only proper ones. -/
theorem IsInside.isProper
    (hInside : s.IsInside t)
    (hProper : s.isProper = true) :
    t.isProper = true := by
  unfold IsInside Span.isProper at *
  simp only [Position.atMost_iff, Position.before_iff] at *
  omega

theorem IsApart.inside
    {s' t' : Span}
    (hApart : s.IsApart t)
    (hs : s'.IsInside s)
    (ht : t'.IsInside t) :
    s'.IsApart t' := by
  unfold IsApart IsInside at *
  simp only [Position.atMost_iff, Position.before_iff] at *
  omega

/- A span that lies inside starts later. -/
theorem start_le_start
    (hs : s.IsOnLines ls)
    (ht : t.IsOnLines ls)
    (hInside : t.IsInside s) :
    s.start ls ≤ t.start ls := by
  rcases Position.atMost_iff.mp hInside.1 with hLt | ⟨hEq, hLe⟩
  · obtain ⟨hStart, _⟩ := hs.1
    obtain ⟨_, hStop⟩ := ht.1
    exact Region.offsetAt_le_of_lt (by omega) (by omega)
      (by omega) _ _
  · unfold start
    rw [hEq]
    exact Region.offsetAt_le_of_le ls _ (by omega)

/- A span that lies inside stops earlier. -/
theorem stop_le_stop
    (hs : s.IsOnLines ls)
    (ht : t.IsOnLines ls)
    (hInside : t.IsInside s) :
    t.stop ls ≤ s.stop ls := by
  rcases Position.atMost_iff.mp hInside.2 with hLt | ⟨hEq, hLe⟩
  · obtain ⟨hStart, _⟩ := ht.2
    obtain ⟨_, hStop⟩ := hs.2
    exact Region.offsetAt_le_of_lt (by omega) (by omega)
      (by omega) _ _
  · unfold stop
    rw [hEq]
    exact Region.offsetAt_le_of_le ls _ hLe

/- A span stops before what begins after its end. -/
theorem stop_le_start
    (hs : s.IsOnLines ls)
    (ht : t.IsOnLines ls)
    (hBefore : s.last.before t.first = true) :
    s.stop ls ≤ t.start ls := by
  rcases Position.before_iff.mp hBefore with hLt | ⟨hEq, hColumn⟩
  · obtain ⟨hStart, _⟩ := hs.2
    obtain ⟨_, hStop⟩ := ht.1
    exact Region.offsetAt_le_of_lt (by omega) (by omega)
      (by omega) _ _
  · unfold start stop
    rw [hEq]
    exact Region.offsetAt_le_of_le ls _ (by omega)

/- A proper span is not inverted. -/
theorem start_le_stop
    (hs : s.IsOnLines ls)
    (hProper : s.isProper = true) :
    s.start ls ≤ s.stop ls := by
  rcases Position.before_iff.mp hProper with hLt | ⟨hEq, hColumn⟩
  · obtain ⟨hStart, _⟩ := hs.1
    obtain ⟨_, hStop⟩ := hs.2
    exact Region.offsetAt_le_of_lt (by omega) (by omega)
      (by omega) _ _
  · unfold start stop
    rw [hEq]
    exact Region.offsetAt_le_of_le ls _ (by omega)

/- The region of a proper span is located in the text. -/
theorem locate_region
    (hs : s.IsOnLines ls)
    (hProper : s.isProper = true) :
    s.region.locate ls = .ok (s.located ls) := by
  have hLe := start_le_stop hs hProper
  obtain ⟨⟨hFirst, hFirst'⟩, hLast, hLast'⟩ := hs
  have hStart :
      Region.offsetOf ls (s.first.line - 1) (s.first.column - 1) =
        .ok (s.start ls) :=
    Region.offsetOf_eq (by omega) (by omega) _
  have hStop :
      Region.offsetOf ls (s.last.line - 1) s.last.column =
        .ok (s.stop ls) :=
    Region.offsetOf_eq (by omega) (by omega) _
  unfold Region.locate region
  rw [hStart, hStop]
  exact if_neg (by omega)

end Span

end Whittle

------------------------------------------------------------
-- Topmost Nodes
------------------------------------------------------------

namespace Whittle

namespace Tree

variable {t : Tree} {marked : Nat → Bool}

/- A node is cut if it is reached: it is marked and proper. -/
def isCut
    (t : Tree)
    (marked : Nat → Bool)
    (i : Nat) : Bool :=
  marked i && (t.span i).isProper

/- The topmost nodes of a subtree that are cut. -/
def topsFrom
    (t : Tree)
    (marked : Nat → Bool) : (fuel : Nat) → Nat → List Nat
  | 0, _ => []
  | fuel + 1, i =>
      if t.isCut marked i then
        [i]
      else
        (t.children i).flatMap (topsFrom t marked fuel)

/- The regions that are cut are those of the topmost nodes. -/
theorem cutFrom_eq
    (fuel i : Nat) :
    t.cutFrom marked true fuel i =
      (t.topsFrom marked fuel i).map fun j =>
        (t.span j).region := by
  induction fuel generalizing i with
  | zero => rfl
  | succ fuel ih =>
      unfold cutFrom topsFrom isCut
      by_cases hCut : (marked i && (t.span i).isProper) = true
      · rw [if_pos hCut, if_pos (by simpa using hCut)]
        rfl
      · rw [if_neg hCut, if_neg (by simpa using hCut),
          List.map_flatMap]
        exact List.flatMap_congr (fun c _ => ih c)

/- Topmost nodes are cut, and stand in the subtree. -/
theorem of_mem_topsFrom
    {fuel i j : Nat}
    (hTop : j ∈ t.topsFrom marked fuel i) :
    t.Reaches i j ∧ t.isCut marked j = true := by
  induction fuel generalizing i with
  | zero => cases hTop
  | succ fuel ih =>
      unfold topsFrom at hTop
      split at hTop
      · rename_i hCut
        rw [List.mem_singleton] at hTop
        subst hTop
        exact ⟨.refl, hCut⟩
      · obtain ⟨c, hc, hTop⟩ := List.mem_flatMap.mp hTop
        obtain ⟨hReaches, hCut⟩ := ih hTop
        exact ⟨.head hc hReaches, hCut⟩

/- Every node that is to be cut lies below a topmost one. -/
theorem IsTree.exists_top
    (hTree : t.IsTree)
    {fuel i j : Nat}
    (hSize : i < t.size)
    (hFuel : t.size ≤ i + fuel)
    (hReaches : t.Reaches i j)
    (hCut : t.isCut marked j = true) :
    ∃ k ∈ t.topsFrom marked fuel i, t.Reaches k j := by
  induction fuel generalizing i with
  | zero => omega
  | succ fuel ih =>
      unfold topsFrom
      split
      · exact ⟨i, by simp, hReaches⟩
      · rename_i hNot
        rcases Relation.ReflTransGen.cases_head hReaches with
          rfl | ⟨c, hc, hRest⟩
        · exact absurd hCut hNot
        · obtain ⟨hAbove, hLt⟩ := hTree.above hc
          obtain ⟨k, hTop, hBelow⟩ := ih hLt (by omega) hRest
          exact ⟨k, List.mem_flatMap.mpr ⟨c, hc, hTop⟩, hBelow⟩

/- The spans of children lie inside those of their parents. -/
def IsNested
    (t : Tree)
    (i : Nat) : Prop :=
  ∀ j, t.Reaches i j →
    ∀ c ∈ t.children j, (t.span c).IsInside (t.span j)

/- Of two proper siblings one ends before the other begins. -/
def AreSiblingsApart
    (t : Tree)
    (i : Nat) : Prop :=
  ∀ j, t.Reaches i j → (t.children j).Pairwise fun c d =>
    (t.span c).isProper → (t.span d).isProper →
      (t.span c).IsApart (t.span d)

/- Where spans are nested, descendants lie inside. -/
theorem IsNested.isInside
    {i j k : Nat}
    (hNested : t.IsNested i)
    (hj : t.Reaches i j)
    (hk : t.Reaches j k) :
    (t.span k).IsInside (t.span j) := by
  induction hk with
  | refl => exact Span.isInside_refl _
  | tail hPath hChild ih =>
      exact (hNested _ (hj.trans hPath) _ hChild).trans ih

/-
  The topmost nodes that are cut are apart.  Two of them lie
  in the subtrees of two siblings, which are proper if they
  are.
-/
theorem pairwise_topsFrom
    {fuel i j : Nat}
    (hNested : t.IsNested i)
    (hApart : t.AreSiblingsApart i)
    (hj : t.Reaches i j) :
    (t.topsFrom marked fuel j).Pairwise fun c d =>
      (t.span c).IsApart (t.span d) := by
  induction fuel generalizing j with
  | zero => exact .nil
  | succ fuel ih =>
      unfold topsFrom
      split
      · exact List.pairwise_singleton _ _
      · rw [List.pairwise_flatMap]
        refine ⟨fun c hc => ih (hj.tail hc), ?_⟩
        refine (hApart j hj).imp_of_mem ?_
        intro c d hc hd hSiblings x hx y hy
        obtain ⟨hcx, hCutX⟩ := of_mem_topsFrom hx
        obtain ⟨hdy, hCutY⟩ := of_mem_topsFrom hy
        have hx := hNested.isInside (hj.tail hc) hcx
        have hy := hNested.isInside (hj.tail hd) hdy
        unfold isCut at hCutX hCutY
        rw [Bool.and_eq_true] at hCutX hCutY
        exact (hSiblings (hx.isProper hCutX.2)
          (hy.isProper hCutY.2)).inside hx hy

end Tree

end Whittle

------------------------------------------------------------
-- Cutting
------------------------------------------------------------

namespace Whittle

namespace Region

/- A region covers an offset of a text with these lines. -/
def covers
    (ls : List Text)
    (r : Region)
    (o : Nat) : Bool :=
  match r.locate ls with
  | .ok located => located.covers o
  | .error _ => false

end Region

namespace Span

variable {ls : List Text} {s t : Span}

/- The offsets that the region of a proper span covers. -/
theorem covers_region
    (hs : s.IsOnLines ls)
    (hProper : s.isProper = true)
    (o : Nat) :
    s.region.covers ls o = (s.located ls).covers o := by
  unfold Region.covers
  rw [locate_region hs hProper]

/- The offsets that a span covers. -/
theorem covers_located
    {o : Nat} :
    (s.located ls).covers o = true ↔
      s.start ls ≤ o ∧ o < s.stop ls := by
  unfold Region.Located.covers
  rw [Bool.and_eq_true, decide_eq_true_eq, decide_eq_true_eq]
  exact Iff.rfl

/- What lies inside covers nothing else. -/
theorem covers_of_isInside
    {o : Nat}
    (hs : s.IsOnLines ls)
    (ht : t.IsOnLines ls)
    (hInside : t.IsInside s)
    (hCovers : (t.located ls).covers o = true) :
    (s.located ls).covers o = true := by
  have hStart := start_le_start hs ht hInside
  have hStop := stop_le_stop hs ht hInside
  rw [covers_located] at hCovers ⊢
  omega

theorem IsApart.located
    (hs : s.IsOnLines ls)
    (ht : t.IsOnLines ls)
    (hApart : s.IsApart t) :
    (s.located ls).IsApart (t.located ls) := by
  rcases hApart with hBefore | hBefore
  · exact .inl (stop_le_start hs ht hBefore)
  · exact .inr (stop_le_start ht hs hBefore)

end Span

end Whittle

namespace Whittle

variable {t : Tree} {marked : Nat → Bool} {text : Text}

/- Regions that can be located are located one by one. -/
theorem mapM_locate
    {ls : List Text}
    {is : List Nat}
    (hLines : ∀ i ∈ is, (t.span i).IsOnLines ls)
    (hProper : ∀ i ∈ is, (t.span i).isProper = true) :
    (is.map fun i => (t.span i).region).mapM
        (Region.locate ls) =
      .ok (is.map fun i => (t.span i).located ls) := by
  induction is with
  | nil => rfl
  | cons i rest ih =>
      rw [List.map_cons, List.mapM_cons,
        Span.locate_region (hLines i (by simp))
          (hProper i (by simp)),
        ih (fun j hj => hLines j (List.mem_cons_of_mem i hj))
          (fun j hj => hProper j (List.mem_cons_of_mem i hj))]
      rfl

/-
  Cutting marked nodes of a tree whose spans are nested and
  whose proper siblings are apart never fails.  It leaves the
  text without the characters that some marked proper node
  covers, wherever such nodes stand in the tree.
-/
theorem cutNodes_eq
    (hTree : t.IsTree)
    (hSize : 0 < t.size)
    (hLines : ∀ i ∈ t.walk 0, (t.span i).IsOnLines text.lines)
    (hNested : ∀ i ∈ t.walk 0, ∀ c ∈ t.children i,
      (t.span c).IsInside (t.span i))
    (hApart : ∀ i ∈ t.walk 0, (t.children i).Pairwise fun c d =>
      (t.span c).isProper → (t.span d).isProper →
        (t.span c).IsApart (t.span d)) :
    cutNodes t marked true text =
      .ok
        (text.without fun o =>
          (t.walk 0).any fun i =>
            marked i && (t.span i).isProper &&
              (t.span i).region.covers text.lines o) := by
  have hWalk : ∀ {i}, i ∈ t.walk 0 ↔ t.Reaches 0 i :=
    hTree.mem_walk hSize
  have hNested' : t.IsNested 0 :=
    fun i hi => hNested i (hWalk.mpr hi)
  have hTops :
      ∀ i ∈ t.topsFrom marked t.size 0,
        t.Reaches 0 i ∧ marked i = true ∧
          (t.span i).isProper = true ∧
          (t.span i).IsOnLines text.lines := by
    intro i hi
    obtain ⟨hReaches, hCut⟩ := Tree.of_mem_topsFrom hi
    obtain ⟨hMarked, hProper⟩ := Bool.and_eq_true_iff.mp hCut
    exact ⟨hReaches, hMarked, hProper, hLines i (hWalk.mpr hReaches)⟩
  have hLocated :=
    mapM_locate (fun i hi => (hTops i hi).2.2.2)
      (fun i hi => (hTops i hi).2.2.1)
  have hPairwise :
      ((t.topsFrom marked t.size 0).map fun i =>
        (t.span i).located text.lines).Pairwise
          Region.Located.IsApart := by
    refine List.pairwise_map.mpr
      ((Tree.pairwise_topsFrom hNested'
        (fun i hi => hApart i (hWalk.mpr hi)) .refl).imp_of_mem ?_)
    intro i j hi hj hSpans
    exact Span.IsApart.located (hTops i hi).2.2.2
      (hTops j hj).2.2.2 hSpans
  unfold cutNodes Tree.cutRegions
  rw [Tree.cutFrom_eq,
    eraseRegions_eq hLocated (hPairwise.sublist List.filter_sublist)]
  refine congrArg Except.ok (Text.withoutFrom_congr ?_ text)
  intro o _
  rw [Bool.eq_iff_iff, List.any_map, List.any_eq_true,
    List.any_eq_true]
  constructor
  · rintro ⟨i, hi, hCovers⟩
    obtain ⟨hReaches, hMarked, hProper, hOn⟩ := hTops i hi
    refine ⟨i, hWalk.mpr hReaches, ?_⟩
    rw [hMarked, hProper, Span.covers_region hOn hProper]
    exact hCovers
  · rintro ⟨j, hj, hCut⟩
    rw [Bool.and_eq_true] at hCut
    obtain ⟨hCut, hCovers⟩ := hCut
    -- the topmost node above `j` covers what `j` covers
    obtain ⟨i, hi, hReaches⟩ :
        ∃ i ∈ t.topsFrom marked t.size 0, t.Reaches i j :=
      hTree.exists_top hSize (by omega) (hWalk.mp hj) hCut
    obtain ⟨hRoot, _, _, hOn⟩ := hTops i hi
    have hProper := (Bool.and_eq_true_iff.mp hCut).2
    rw [Span.covers_region (hLines j hj) hProper] at hCovers
    exact ⟨i, hi, Span.covers_of_isInside hOn (hLines j hj)
      (hNested'.isInside hRoot hReaches) hCovers⟩

/- The second of two words that stand side by side is cut. -/
theorem cutNodes_eq_words :
    let t :=
      Tree.siblings (.ofNumbers 1 1 1 5)
        [.ofNumbers 1 1 1 2, .ofNumbers 1 4 1 5]
    cutNodes t (· == 2) true "ab cd".toList =
      .ok "ab ".toList := by
  intro t
  rw [cutNodes_eq (Tree.isTree_siblings _ _) (by decide)
    (by decide +kernel) (by decide +kernel) (by decide +kernel)]
  decide +kernel

end Whittle

------------------------------------------------------------
-- Consecutive Siblings
------------------------------------------------------------

namespace Whittle

variable {t : Tree}

/-
  If each sibling ends before the next one begins, it ends
  before all later ones, if none of them is inverted.
-/
theorem pairwise_before_of_isChain
    {is : List Nat}
    (hUpright : ∀ i ∈ is,
      (t.span i).first.atMost (t.span i).last = true)
    (hChain : is.IsChain fun c d =>
      (t.span c).last.before (t.span d).first = true) :
    is.Pairwise fun c d =>
      (t.span c).last.before (t.span d).first = true := by
  induction is with
  | nil => exact .nil
  | cons c rest ih =>
      cases rest with
      | nil => exact List.pairwise_singleton _ _
      | cons d more =>
          obtain ⟨hFirst, hRest⟩ :=
            List.isChain_cons_cons.mp hChain
          have hMore :=
            ih (fun i hi => hUpright i (List.mem_cons_of_mem c hi))
              hRest
          have hd := hUpright d (by simp)
          refine List.pairwise_cons.mpr ⟨?_, hMore⟩
          intro e he
          rcases List.mem_cons.mp he with rfl | he
          · exact hFirst
          · have hLater := (List.pairwise_cons.mp hMore).1 e he
            rw [Position.before_iff] at hFirst hLater ⊢
            rw [Position.atMost_iff] at hd
            omega

/-
  Siblings of which each one ends before the next begins are
  all apart, if none of them is inverted.
-/
theorem pairwise_isApart_of_isChain
    {is : List Nat}
    (hUpright : ∀ i ∈ is,
      (t.span i).first.atMost (t.span i).last = true)
    (hChain : is.IsChain fun c d =>
      (t.span c).last.before (t.span d).first = true) :
    is.Pairwise fun c d => (t.span c).IsApart (t.span d) :=
  (pairwise_before_of_isChain hUpright hChain).imp
    fun hBefore => .inl hBefore

/- A sibling that begins where it should end, between two. -/
def invertedBetween : Tree :=
  Tree.siblings (.ofNumbers 1 1 1 10)
    [.ofNumbers 1 1 1 5, .ofNumbers 1 10 1 1, .ofNumbers 1 2 1 6]

/- The siblings around the inverted one overlap. -/
theorem cutNodes_invertedBetween :
    cutNodes invertedBetween (fun i => i == 1 || i == 3) true
        "abcdef".toList =
      .error (.overlapping ⟨0, 0, 0, 5⟩ ⟨0, 0, 1, 6⟩) := by
  have hRegions :
      invertedBetween.cutRegions (fun i => i == 1 || i == 3) true =
        [⟨0, 0, 0, 5⟩, ⟨0, 0, 1, 6⟩] := by
    decide +kernel
  unfold cutNodes
  rw [hRegions, eraseRegions_of_sorted (by rfl) (by decide)]
  rfl

/-
  It is not enough that each sibling ends before the next one
  begins.  An inverted sibling between two others may end far
  before it begins, so that these overlap.
-/
theorem not_cutNodes_of_isChain :
    ¬ ∀ (t : Tree) (marked : Nat → Bool) (text : Text),
      t.IsTree → 0 < t.size →
        (∀ i ∈ t.walk 0, (t.span i).IsOnLines text.lines) →
          (∀ i ∈ t.walk 0, ∀ c ∈ t.children i,
            (t.span c).IsInside (t.span i)) →
            (∀ i ∈ t.walk 0, (t.children i).IsChain fun c d =>
              (t.span c).last.before (t.span d).first) →
              ∃ rest, cutNodes t marked true text = .ok rest := by
  intro hAll
  obtain ⟨rest, hRest⟩ :=
    hAll invertedBetween (fun i => i == 1 || i == 3)
      "abcdef".toList (Tree.isTree_siblings _ _)
      (by decide +kernel) (by decide +kernel) (by decide +kernel)
      (by decide +kernel)
  rw [cutNodes_invertedBetween] at hRest
  cases hRest

end Whittle
