import Whittle.Proofs.Edit.Keeping

/-
  Where the nodes of a tree are after its gaps are trimmed.

  Key definitions include:
    * `Position.carried`
    * `Position.IsClear`
    * `Position.moved`
    * `Tree.carried`

  Main statements:
    * `Position.carried_eq`
    * `Position.IsClear.moved_isIn`
    * `Tree.LiesOver.carried`

  A place that no gap covers is carried to the end of what is
  left of the text before it.  It moves up with its line, and
  to the left by what is cut off there.
-/

------------------------------------------------------------
-- Carrying Places
------------------------------------------------------------

namespace Whittle

/- The place behind the last character of a text. -/
def Text.place
    (t : Text) : Position :=
  ⟨t.lines.length - 1, (t.lines.getLast?.getD []).length⟩

namespace Position

/-
  Where the character at a place is after the regions are
  erased: behind what is left of the text before it.
-/
def carried
    (p : Position)
    (ls : List Text)
    (rs : List Region) : Position :=
  (Text.without (fun o => rs.any (·.covers ls o))
    ((Text.ofLines ls).take (p.offsetIn ls))).place

/- A place that stands above a region or behind it. -/
def IsClear
    (p : Position)
    (rs : List Region) : Prop :=
  ∀ r ∈ rs, p.line < r.beginLine ∨ r.stop.atMost p = true

/-
  A place moved up with its line, and to the left by what is
  cut off there.  Before the first line nothing moves.
-/
def moved
    (p : Position)
    (rs : List Region) : Position :=
  if p.line < 0 then
    p
  else
    ⟨Text.keptBefore (Region.cutIn rs) p.line.toNat,
      p.column - (Region.cutIn rs p.line.toNat).getD 0⟩

variable {ls : List Text} {removable : Text → Bool}
variable {rs : List Region} {p q : Position}

/- Less is cut off from a line than stands before the place. -/
theorem IsClear.exists_cutIn
    (hClear : p.IsClear rs)
    (hIn : p.IsIn ls)
    (hGaps : ∀ r ∈ rs, r.IsGap ls removable) :
    ∃ c : Nat, Region.cutIn rs p.line.toNat = some c ∧
      c ≤ p.column := by
  have hLine := hIn.1.1
  have hColumn := hIn.2.1
  have hStays :
      rs.any (·.removesLine p.line.toNat) = false := by
    rw [List.any_eq_false]
    intro r hr
    have hLines := (hGaps r hr).lines
    have hSide := hClear r hr
    rw [Position.atMost_iff] at hSide
    simp only [Region.stop] at hSide
    simp only [Region.removesLine, Bool.and_eq_true,
      decide_eq_true_eq]
    omega
  unfold Region.cutIn
  rw [hStays]
  cases hFound :
      rs.find? fun r => r.endLine = (p.line.toNat : Int) with
  | none => exact ⟨0, by simp, by simpa using hColumn⟩
  | some r =>
      have hr := List.mem_of_find?_eq_some hFound
      have hEnd : r.endLine = p.line.toNat := by
        simpa using List.find?_some hFound
      have hLines := (hGaps r hr).lines
      have hSide := hClear r hr
      rw [Position.atMost_iff] at hSide
      simp only [Region.stop] at hSide
      exact ⟨r.endColumn.toNat, by simp, by omega⟩

/- A clear place has moved with what is left of its line. -/
theorem moved_eq
    {c : Nat}
    (hLine : 0 ≤ p.line)
    (hCut : Region.cutIn rs p.line.toNat = some c) :
    p.moved rs =
      ⟨Text.keptBefore (Region.cutIn rs) p.line.toNat,
        p.column - c⟩ := by
  unfold moved
  rw [if_neg (by omega), hCut]
  rfl

theorem rowOf_take_concat
    {line n : Nat}
    (hLe : line ≤ n)
    (hLine : n < ls.length)
    (column : Nat) :
    rowOf (ls.take n ++ [(rowOf ls n).take column]) line =
      if line = n then (rowOf ls n).take column
      else rowOf ls line := by
  have hCount : (ls.take n).length = n := by
    rw [List.length_take]
    omega
  unfold rowOf
  by_cases hEq : line = n
  · subst hEq
    rw [if_pos rfl, List.getElem?_append_right (by omega), hCount]
    simp
  · rw [if_neg hEq, List.getElem?_append_left (by omega),
      List.getElem?_take_of_lt (by omega)]

theorem lineOffset_take_concat
    {line n : Nat}
    (hLe : line ≤ n)
    (hLine : n < ls.length)
    (l : Text) :
    Region.lineOffset (ls.take n ++ [l]) line =
      Region.lineOffset ls line := by
  have hCount : (ls.take n).length = n := by
    rw [List.length_take]
    omega
  unfold Region.lineOffset
  rw [List.take_append_of_le_length (by omega), List.take_take,
    Nat.min_eq_left hLe]

/- What is left of the text before a clear place. -/
theorem IsClear.without_take
    (hClear : p.IsClear rs)
    (hIn : p.IsIn ls)
    (hGaps : ∀ r ∈ rs, r.IsGap ls removable)
    (hOrder : rs.Pairwise fun r s => r.endLine < s.beginLine)
    {c : Nat}
    (hCut : Region.cutIn rs p.line.toNat = some c) :
    Text.without (fun o => rs.any (·.covers ls o))
        ((Text.ofLines ls).take (p.offsetIn ls)) =
      Text.ofLines
        (Text.keepRows (Region.cutIn rs) (ls.take p.line.toNat) ++
          [((rowOf ls p.line.toNat).take p.column.toNat).drop c]) := by
  obtain ⟨c', hCut', hLe⟩ := hClear.exists_cutIn hIn hGaps
  cases hCut.symm.trans hCut'
  have hLast := hIn.1
  have hColumn := hIn.2
  have hLine : p.line.toNat < ls.length := by omega
  have hCount : (ls.take p.line.toNat).length = p.line.toNat := by
    rw [List.length_take]
    omega
  rw [Position.offsetIn_eq hIn, Text.take_ofLines hLine (by omega),
    ← Text.keepRows_concat hCut (Nat.le_of_lt hLine)]
  apply Text.withoutFrom_ofLines (by simp)
  · rw [List.length_append, hCount]
    simp [hCut]
  · intro line hLt d hCut'
    rw [List.length_append, hCount, List.length_singleton] at hLt
    rw [rowOf_take_concat (by omega) hLine]
    split
    · rename_i hSame
      cases (hSame ▸ hCut').symm.trans hCut
      rw [List.length_take]
      omega
    · exact Region.cutIn_le hGaps hCut'
  · intro line hLt column hWithin
    rw [List.length_append, hCount, List.length_singleton] at hLt
    rw [rowOf_take_concat (by omega) hLine] at hWithin
    have hRow : column ≤ (rowOf ls line).length := by
      split at hWithin
      · rename_i hSame
        rw [List.length_take] at hWithin
        rw [hSame]
        omega
      · exact hWithin
    rw [Nat.zero_add, lineOffset_take_concat (by omega) hLine]
    exact Region.any_covers_eq hGaps hOrder (by omega) hRow

/- The place behind lines is on the last one of them. -/
theorem place_ofLines
    (l : Text)
    (hFree : ∀ m ∈ ls ++ [l], '\n' ∉ m) :
    (Text.ofLines (ls ++ [l])).place = ⟨ls.length, l.length⟩ := by
  unfold Text.place
  rw [Text.lines_ofLines (by simp) hFree]
  simp

/- A clear place of a text is carried to where it has moved. -/
theorem carried_eq
    (hClear : p.IsClear rs)
    (hIn : p.IsIn ls)
    (hFree : ∀ l ∈ ls, '\n' ∉ l)
    (hGaps : ∀ r ∈ rs, r.IsGap ls removable)
    (hOrder : rs.Pairwise fun r s => r.endLine < s.beginLine) :
    p.carried ls rs = p.moved rs := by
  have hLine := hIn.1
  have hColumn := hIn.2
  obtain ⟨c, hCut, hLe⟩ := hClear.exists_cutIn hIn hGaps
  have hFree' :
      ∀ l ∈ Text.keepRows (Region.cutIn rs) (ls.take p.line.toNat) ++
        [((rowOf ls p.line.toNat).take p.column.toNat).drop c],
        '\n' ∉ l := by
    intro l hl hNewline
    rcases List.mem_append.mp hl with hl | hl
    · exact Text.newline_not_mem_keepRows _
        (fun m hm => hFree m (List.mem_of_mem_take hm)) l hl hNewline
    · rw [List.mem_singleton] at hl
      subst hl
      exact hFree _ (rowOf_mem (by omega))
        (List.mem_of_mem_take (List.mem_of_mem_drop hNewline))
  unfold carried
  rw [hClear.without_take hIn hGaps hOrder hCut,
    place_ofLines _ hFree', moved_eq hLine.1 hCut,
    Text.length_keepRows_take _ (by omega), List.length_drop,
    List.length_take]
  congr 1
  omega

/- A clear place has moved to a place of what is left. -/
theorem IsClear.moved_isIn
    (hClear : p.IsClear rs)
    (hIn : p.IsIn ls)
    (hGaps : ∀ r ∈ rs, r.IsGap ls removable) :
    (p.moved rs).IsIn (Text.keepRows (Region.cutIn rs) ls) := by
  have hLine := hIn.1
  have hColumn := hIn.2
  obtain ⟨c, hCut, hLe⟩ := hClear.exists_cutIn hIn hGaps
  have hLast : p.line.toNat < ls.length := by omega
  obtain ⟨hKept, hRow⟩ := Text.rowOf_keepRows hLast hCut
  rw [moved_eq hLine.1 hCut]
  refine ⟨⟨?_, ?_⟩, ?_, ?_⟩
  · exact Int.natCast_nonneg _
  · simpa using hKept
  · simpa using hLe
  · dsimp only
    rw [Int.toNat_natCast, hRow, List.length_drop]
    omega

theorem IsClear.drop_moved
    (hClear : p.IsClear rs)
    (hIn : p.IsIn ls)
    (hGaps : ∀ r ∈ rs, r.IsGap ls removable) :
    (rowOf (Text.keepRows (Region.cutIn rs) ls)
        (p.moved rs).line.toNat).drop (p.moved rs).column.toNat =
      (rowOf ls p.line.toNat).drop p.column.toNat := by
  have hLine := hIn.1
  have hLast : p.line.toNat < ls.length := by omega
  obtain ⟨c, hCut, hLe⟩ := hClear.exists_cutIn hIn hGaps
  have hColumn : c + (p.column - c).toNat = p.column.toNat := by
    omega
  rw [moved_eq hLine.1 hCut]
  dsimp only
  rw [Int.toNat_natCast, (Text.rowOf_keepRows hLast hCut).2,
    List.drop_drop, hColumn]

/- Clear places keep their order. -/
theorem IsClear.moved_before
    (hp : p.IsClear rs)
    (hq : q.IsClear rs)
    (hpIn : p.IsIn ls)
    (hqIn : q.IsIn ls)
    (hGaps : ∀ r ∈ rs, r.IsGap ls removable) :
    (p.moved rs).before (q.moved rs) = p.before q := by
  have hpLine := hpIn.1
  have hqLine := hqIn.1
  obtain ⟨c, hCut, hLe⟩ := hp.exists_cutIn hpIn hGaps
  obtain ⟨d, hCut', hLe'⟩ := hq.exists_cutIn hqIn hGaps
  rw [Bool.eq_iff_iff, moved_eq hpLine.1 hCut,
    moved_eq hqLine.1 hCut', before_iff, before_iff]
  dsimp only
  rcases Int.lt_trichotomy p.line q.line with hLt | hEq | hGt
  · have hLines : p.line.toNat < q.line.toNat := by omega
    have hKept := Text.keptBefore_lt hLines hCut
    omega
  · rw [hEq] at hCut ⊢
    cases hCut.symm.trans hCut'
    omega
  · have hLines : q.line.toNat < p.line.toNat := by omega
    have hKept := Text.keptBefore_lt hLines hCut'
    omega

/- Clear places keep their order. -/
theorem IsClear.moved_atMost
    (hp : p.IsClear rs)
    (hq : q.IsClear rs)
    (hpIn : p.IsIn ls)
    (hqIn : q.IsIn ls)
    (hGaps : ∀ r ∈ rs, r.IsGap ls removable) :
    (p.moved rs).atMost (q.moved rs) = p.atMost q := by
  unfold atMost
  rw [hq.moved_before hp hqIn hpIn hGaps]

end Position

end Whittle

------------------------------------------------------------
-- Carrying Trees
------------------------------------------------------------

namespace Whittle

/- A span, counted from one, with both of its places carried. -/
def Span.carried
    (s : Span)
    (ls : List Text)
    (rs : List Region) : Span :=
  let carry := fun p : Position =>
    let q := (⟨p.line - 1, p.column - 1⟩ : Position).carried ls rs
    ⟨q.line + 1, q.column + 1⟩
  ⟨carry s.first, carry s.last⟩

namespace Tree

/-
  A tree after regions are erased from its text: each place
  of a node is carried to where its character now is.
-/
def carried
    (t : Tree)
    (ls : List Text)
    (rs : List Region) : Tree :=
  { t with
    entries := t.entries.map fun e =>
      { e with span := e.span.carried ls rs } }

/-
  Gaps that are trimmed from a tree over the lines of a text.
    * `ends` : nodes end in the text.
    * `free` : lines have no newlines.
    * `gaps` : the regions stay clear of all nodes.
-/
structure Trims
    (t : Tree)
    (ls : List Text)
    (removable : Text → Bool)
    (rs : List Region) : Prop where
  lies : t.LiesOver ls
  ends : ∀ i, t.Reaches 0 i → (t.endOf i).IsIn ls
  free : ∀ l ∈ ls, '\n' ∉ l
  gaps : t.AreGaps ls removable (t.Reaches 0) ⟨-1, 0⟩ (t.endOf 0) rs

variable {t : Tree} {ls : List Text} {removable : Text → Bool}
variable {rs : List Region}

@[simp]
theorem size_carried :
    (t.carried ls rs).size = t.size := by
  simp [carried, size]

@[simp]
theorem children_carried
    (i : Nat) :
    (t.carried ls rs).children i = t.children i := by
  unfold children entry carried
  dsimp only
  rw [Array.getElem?_map]
  cases t.entries[i]? <;> rfl

@[simp]
theorem reaches_carried
    {i j : Nat} :
    (t.carried ls rs).Reaches i j ↔ t.Reaches i j := by
  simp [Reaches]

/- Carrying keeps a tree a tree. -/
theorem IsTree.carried
    (hTree : t.IsTree) :
    (t.carried ls rs).IsTree := by
  constructor
  · intro p i hi
    rw [children_carried] at hi
    rw [size_carried]
    exact hTree.above hi
  · intro p
    rw [children_carried]
    exact hTree.once p
  · intro p q i hp hq
    rw [children_carried] at hp hq
    exact hTree.single hp hq

/- The span of a node is carried. -/
theorem span_carried
    {i : Nat}
    (hi : i < t.size) :
    (t.carried ls rs).span i = (t.span i).carried ls rs := by
  have hEntry : t.entries[i]? = some t.entries[i] :=
    Array.getElem?_eq_getElem hi
  simp [span, entry, carried, hEntry]

/- Where a node begins is carried. -/
theorem beginOf_carried
    {i : Nat}
    (hi : i < t.size) :
    (t.carried ls rs).beginOf i = (t.beginOf i).carried ls rs := by
  simp [beginOf, span_carried hi, Span.carried]

/- Where a node ends is carried. -/
theorem endOf_carried
    {i : Nat}
    (hi : i < t.size) :
    (t.carried ls rs).endOf i = (t.endOf i).carried ls rs := by
  simp [endOf, span_carried hi, Span.carried]

/- Places that count from one are ordered alike. -/
theorem isProper_eq
    (i : Nat) :
    (t.span i).isProper = (t.beginOf i).before (t.endOf i) := by
  rw [Bool.eq_iff_iff]
  unfold Span.isProper
  rw [Position.before_iff, Position.before_iff]
  simp only [beginOf, endOf]
  omega

/- Places that count from one are ordered alike. -/
theorem isInside_iff
    {i c : Nat} :
    (t.span c).IsInside (t.span i) ↔
      (t.beginOf i).atMost (t.beginOf c) = true ∧
        (t.endOf c).atMost (t.endOf i) = true := by
  unfold Span.IsInside
  simp only [Position.atMost_iff, beginOf, endOf]
  omega

namespace Trims

variable (hTrims : t.Trims ls removable rs)
include hTrims

/- What a walk visits has an entry. -/
theorem lt_size
    {i : Nat}
    (hi : t.Reaches 0 i) :
    i < t.size :=
  hTrims.lies.isTree.lt_of_reaches hTrims.lies.nonempty hi

/- No gap covers the begin of a node. -/
theorem begin_isClear
    {i : Nat}
    (hi : t.Reaches 0 i) :
    (t.beginOf i).IsClear rs := by
  intro r hr
  have hUpright := Position.atMost_iff.mp (hTrims.lies.begin_atMost hi)
  rcases hTrims.gaps.spares r hr i hi with
    hBehind | hAbove | ⟨hAround, -, -⟩
  · exact .inr hBehind
  · exact .inl (by omega)
  · exact .inl hAround

/- No gap covers the end of a node. -/
theorem end_isClear
    {i : Nat}
    (hi : t.Reaches 0 i) :
    (t.endOf i).IsClear rs := by
  intro r hr
  have hUpright := hTrims.lies.begin_atMost hi
  rcases hTrims.gaps.spares r hr i hi with
    hBehind | hAbove | ⟨-, hUpTo, -⟩
  · exact .inr (Position.atMost_trans hBehind hUpright)
  · exact .inl hAbove
  · exact .inr hUpTo

/- Where a node begins has moved. -/
theorem beginOf_carried
    {i : Nat}
    (hi : t.Reaches 0 i) :
    (t.carried ls rs).beginOf i = (t.beginOf i).moved rs := by
  rw [Tree.beginOf_carried (hTrims.lt_size hi)]
  exact Position.carried_eq (hTrims.begin_isClear hi)
    (hTrims.lies.begin_isIn hi) hTrims.free hTrims.gaps.areGaps
    hTrims.gaps.ordered

/- Where a node ends has moved. -/
theorem endOf_carried
    {i : Nat}
    (hi : t.Reaches 0 i) :
    (t.carried ls rs).endOf i = (t.endOf i).moved rs := by
  rw [Tree.endOf_carried (hTrims.lt_size hi)]
  exact Position.carried_eq (hTrims.end_isClear hi)
    (hTrims.ends i hi) hTrims.free hTrims.gaps.areGaps
    hTrims.gaps.ordered

/- A node that is not empty is not emptied. -/
theorem isProper_carried
    {i : Nat}
    (hi : t.Reaches 0 i) :
    ((t.carried ls rs).span i).isProper = (t.span i).isProper := by
  rw [isProper_eq, isProper_eq, hTrims.beginOf_carried hi,
    hTrims.endOf_carried hi]
  exact (hTrims.begin_isClear hi).moved_before
    (hTrims.end_isClear hi) (hTrims.lies.begin_isIn hi)
    (hTrims.ends i hi) hTrims.gaps.areGaps

/- The carried tree lies over what is left of the lines. -/
theorem liesOver_carried :
    (t.carried ls rs).LiesOver
      (Text.keepRows (Region.cutIn rs) ls) := by
  have hLies := hTrims.lies
  have hGaps := hTrims.gaps.areGaps
  have hWalk : ∀ i ∈ (t.carried ls rs).walk 0, t.Reaches 0 i := by
    intro i hi
    rw [hLies.isTree.carried.mem_walk
      (by rw [size_carried]; exact hLies.nonempty)] at hi
    exact reaches_carried.mp hi
  constructor
  · exact hLies.isTree.carried
  · rw [size_carried]
    exact hLies.nonempty
  · intro i hi
    have hReach := hWalk i hi
    rw [hTrims.beginOf_carried hReach]
    exact (hTrims.begin_isClear hReach).moved_isIn
      (hLies.begin_isIn hReach) hGaps
  · intro i hi
    have hReach := hWalk i hi
    rw [← begin_atMost_end, hTrims.beginOf_carried hReach,
      hTrims.endOf_carried hReach,
      (hTrims.begin_isClear hReach).moved_atMost
        (hTrims.end_isClear hReach) (hLies.begin_isIn hReach)
        (hTrims.ends i hReach) hGaps]
    exact hLies.begin_atMost hReach
  · intro i hi c hc
    have hReach := hWalk i hi
    rw [children_carried] at hc
    have hChild := hReach.tail hc
    have hInside := hLies.inside hReach (.single hc)
    rw [isInside_iff, hTrims.beginOf_carried hReach,
      hTrims.beginOf_carried hChild, hTrims.endOf_carried hReach,
      hTrims.endOf_carried hChild,
      (hTrims.begin_isClear hReach).moved_atMost
        (hTrims.begin_isClear hChild) (hLies.begin_isIn hReach)
        (hLies.begin_isIn hChild) hGaps,
      (hTrims.end_isClear hChild).moved_atMost
        (hTrims.end_isClear hReach) (hTrims.ends c hChild)
        (hTrims.ends i hReach) hGaps]
    exact hInside
  · intro i hi
    have hReach := hWalk i hi
    rw [children_carried]
    refine List.Pairwise.isChain
      ((hLies.siblings hReach).imp_of_mem ?_)
    intro c d hc hd hBefore
    have hChild := hReach.tail hc
    have hNext := hReach.tail hd
    rw [← end_before_begin, hTrims.endOf_carried hChild,
      hTrims.beginOf_carried hNext,
      (hTrims.end_isClear hChild).moved_before
        (hTrims.begin_isClear hNext) (hTrims.ends c hChild)
        (hLies.begin_isIn hNext) hGaps]
    exact hBefore

end Trims

end Tree

end Whittle
