import Whittle.Proofs.Edit.Relocation

/-
  One gap before a node, looked at again.

  Key definitions include:
    * `Position.IsMovable`

  Main statements:
    * `Position.IsMovable.row_moved`
    * `gapFound_moved`
    * `gapFound_trimmed`

  A gap that nothing was trimmed from has the same text
  again.  A gap that was trimmed down to an empty line is
  trimmed again, without a region.
-/

------------------------------------------------------------
-- Lines Between Gaps
------------------------------------------------------------

namespace Whittle

theorem drop_take_eq_map
    (ls : List Text)
    {first last : Nat}
    (hLast : last ≤ ls.length) :
    (ls.take last).drop first =
      (List.range (last - first)).map fun k =>
        rowOf ls (first + k) := by
  apply List.ext_getElem
  · simp only [List.length_drop, List.length_take,
      List.length_map, List.length_range]
    omega
  · intro k hk hk'
    simp only [List.length_map, List.length_range] at hk'
    rw [List.getElem_drop, List.getElem_take, List.getElem_map,
      List.getElem_range, rowOf_eq (by omega)]

/- Lines that are kept are all counted. -/
theorem Text.keptBefore_add
    {cut : Nat → Option Nat}
    {first n : Nat}
    (hKept : ∀ line, first ≤ line → line < first + n →
      (cut line).isSome = true) :
    keptBefore cut (first + n) = keptBefore cut first + n := by
  induction n with
  | zero => rfl
  | succ n ih =>
      rw [← Nat.add_assoc, keptBefore,
        if_pos (hKept _ (by omega) (by omega)),
        ih fun line hLe hLt => hKept line hLe (by omega)]
      omega

/- Lines that are gone are not counted. -/
theorem Text.keptBefore_add_of_gone
    {cut : Nat → Option Nat}
    {first n : Nat}
    (hGone : ∀ line, first ≤ line → line < first + n →
      cut line = none) :
    keptBefore cut (first + n) = keptBefore cut first := by
  induction n with
  | zero => rfl
  | succ n ih =>
      rw [← Nat.add_assoc, keptBefore,
        hGone _ (by omega) (by omega),
        ih fun line hLe hLt => hGone line hLe (by omega)]
      rfl

variable {ls : List Text} {removable : Text → Bool}
variable {rs : List Region} {p b : Position}

theorem Region.cutIn_eq_zero
    (hGaps : ∀ r ∈ rs, r.IsGap ls removable)
    {line : Nat}
    (hApart : ∀ r ∈ rs, r.endLine < line ∨ line < r.beginLine) :
    cutIn rs line = some 0 := by
  have hStays : rs.any (·.removesLine line) = false := by
    rw [List.any_eq_false]
    intro r hr
    have hSide := hApart r hr
    simp only [removesLine, Bool.and_eq_true, decide_eq_true_eq]
    omega
  have hNone :
      (rs.find? fun r => r.endLine = (line : Int)) = none := by
    rw [List.find?_eq_none]
    intro r hr
    have hSide := hApart r hr
    have hLines := (hGaps r hr).lines
    rw [decide_eq_true_eq]
    omega
  simp [cutIn, hStays, hNone]

namespace Position

/-
  A place behind which a gap may be looked for: above the
  first line, or in the text and clear of the regions.
-/
def IsMovable
    (p : Position)
    (ls : List Text)
    (rs : List Region) : Prop :=
  p = ⟨-1, 0⟩ ∨ p.IsIn ls ∧ p.IsClear rs

namespace IsMovable

variable (hp : p.IsMovable ls rs)
variable (hGaps : ∀ r ∈ rs, r.IsGap ls removable)

include hp in
/- A movable place is at most one line above the text. -/
theorem line_bounds
    (hSome : ls ≠ []) :
    -1 ≤ p.line ∧ p.line < ls.length := by
  have hLength := List.length_pos_iff.mpr hSome
  rcases hp with rfl | hIn
  · constructor <;> dsimp only <;> omega
  · have hLine := hIn.1.1
    omega

include hp hGaps in
/- The line after the place follows it. -/
theorem keptBefore_next :
    (Text.keptBefore (Region.cutIn rs) (p.line + 1).toNat : Int) =
      (p.moved rs).line + 1 := by
  rcases hp with rfl | ⟨hIn, hClear⟩
  · rfl
  · have hLine := hIn.1
    obtain ⟨c, hCut, hLe⟩ := hClear.exists_cutIn hIn hGaps
    have hNext : (p.line + 1).toNat = p.line.toNat + 1 := by omega
    rw [moved_eq hLine.1 hCut, hNext, Text.keptBefore, hCut]
    simp

include hp hGaps in
/- Lines between the gaps follow one another. -/
theorem row_moved
    {last : Int}
    (hApart : ∀ r ∈ rs, r.stop.atMost p = true ∨ last < r.beginLine)
    (line : Nat)
    (hBehind : p.line < line)
    (hUpTo : line ≤ last)
    (hLine : line < ls.length) :
    (Text.keptBefore (Region.cutIn rs) line : Int) =
        (p.moved rs).line + (line - p.line) ∧
      Region.cutIn rs line = some 0 ∧
      rowOf (Text.keepRows (Region.cutIn rs) ls)
          (Text.keptBefore (Region.cutIn rs) line) =
        rowOf ls line := by
  have hBounds := hp.line_bounds (List.ne_nil_of_length_pos (by omega))
  have hZero : ∀ line' : Nat, p.line < line' → line' ≤ last →
      Region.cutIn rs line' = some 0 := by
    intro line' hBehind' hUpTo'
    apply Region.cutIn_eq_zero hGaps
    intro r hr
    have hSide := hApart r hr
    rw [Position.atMost_iff] at hSide
    simp only [Region.stop] at hSide
    omega
  have hCut := hZero line hBehind hUpTo
  have hFirst := hp.keptBefore_next hGaps
  have hSplit :
      line = (p.line + 1).toNat + (line - (p.line + 1).toNat) := by
    omega
  have hCount :
      Text.keptBefore (Region.cutIn rs) line =
        Text.keptBefore (Region.cutIn rs) (p.line + 1).toNat +
          (line - (p.line + 1).toNat) := by
    conv => lhs; rw [hSplit]
    apply Text.keptBefore_add
    intro line' hLe hLt
    rw [hZero line' (by omega) (by omega)]
    rfl
  refine ⟨by omega, hCut, ?_⟩
  have hRow := (Text.rowOf_keepRows hLine hCut).2
  rwa [List.drop_zero] at hRow

end IsMovable

end Position

end Whittle

------------------------------------------------------------
-- A Gap That Stays
------------------------------------------------------------

namespace Whittle

variable {ls : List Text} {removable : Text → Bool}
variable {rs : List Region} {p b : Position}

/- The rest of a line behind a movable place stays. -/
theorem restOf_moved
    (hp : p.IsMovable ls rs)
    (hGaps : ∀ r ∈ rs, r.IsGap ls removable) :
    restOf (Text.keepRows (Region.cutIn rs) ls) (p.moved rs) =
      restOf ls p := by
  rcases hp with rfl | ⟨hIn, hClear⟩
  · rfl
  · have hLine := hIn.1
    have hColumn := hIn.2.1
    have hMoved := hClear.moved_isIn hIn hGaps
    have hMovedLine := hMoved.1.1
    have hMovedColumn := hMoved.2.1
    have hRest : ∀ {ms : List Text} {q : Position},
        0 ≤ q.line → 0 ≤ q.column →
          restOf ms q =
            ((rowOf ms q.line.toNat).drop q.column.toNat).drop 1 := by
      intro ms q hq hq'
      unfold restOf sliceFrom
      rw [if_neg (by omega), if_neg (by omega), List.drop_drop]
      congr 1
      omega
    rw [hRest hMovedLine hMovedColumn, hRest hLine.1 hColumn,
      hClear.drop_moved hIn hGaps]

/- The text of a gap: its rows, then what it takes of a line. -/
theorem textIn_gapRegion
    (hStart : -1 ≤ p.line)
    (hBelow : p.line + 1 < b.line)
    (hIn : b.IsIn ls) :
    (gapRegion ls p b).textIn ls =
      Text.ofLines
        (((List.range ((gapStop ls b).line - p.line - 1).toNat).map
            fun k => rowOf ls ((p.line + 1).toNat + k)) ++
          [(rowOf ls (gapStop ls b).line.toNat).take
            (gapStop ls b).column.toNat]) := by
  have hStopIn := gapStop_isIn hIn
  have hBounds := (gapStop_bounds hIn).1
  have hCount :
      ((gapStop ls b).line - p.line - 1).toNat =
        (gapStop ls b).line.toNat - (p.line + 1).toNat := by
    omega
  have hLast : (gapStop ls b).line.toNat ≤ ls.length := by
    have hLine := hStopIn.1
    omega
  rw [hCount, ← drop_take_eq_map ls hLast]
  exact Region.textIn_eq (r := gapRegion ls p b) rfl
    (by simp only [gapRegion]; omega)
    (by simp only [gapRegion]; omega) hStopIn

section

variable (hp : p.IsMovable ls rs)
variable (hGaps : ∀ r ∈ rs, r.IsGap ls removable)
variable (hIn : b.IsIn ls)
variable (hBelow : p.line + 1 < b.line)
variable (hApart : ∀ r ∈ rs,
  r.stop.atMost p = true ∨ b.line < r.beginLine)

include hp hGaps hIn hBelow hApart

/- A node below a gap that stays moves with its line only. -/
theorem moved_eq_of_apart :
    b.moved rs =
      ⟨(p.moved rs).line + (b.line - p.line), b.column⟩ := by
  have hLine := hIn.1
  obtain ⟨hKept, hCut, -⟩ :=
    hp.row_moved hGaps hApart b.line.toNat (by omega) (by omega)
      (by omega)
  rw [Position.moved_eq hLine.1 hCut]
  congr 1
  · omega
  · omega

/- The rows below the place stay. -/
theorem rowOf_moved
    (line : Int)
    (hBehind : p.line < line)
    (hUpTo : line ≤ b.line) :
    rowOf (Text.keepRows (Region.cutIn rs) ls)
        ((p.moved rs).line + (line - p.line)).toNat =
      rowOf ls line.toNat := by
  have hLine := hIn.1
  have hBounds := hp.line_bounds
    (List.ne_nil_of_length_pos (by omega))
  obtain ⟨hKept, -, hRow⟩ :=
    hp.row_moved hGaps hApart line.toNat (by omega) (by omega)
      (by omega)
  have hCount :
      ((p.moved rs).line + (line - p.line)).toNat =
        Text.keptBefore (Region.cutIn rs) line.toNat := by
    omega
  rw [hCount, hRow]

/- A gap that stays ends where it has ended. -/
theorem gapStop_moved :
    gapStop (Text.keepRows (Region.cutIn rs) ls) (b.moved rs) =
      ⟨(p.moved rs).line + ((gapStop ls b).line - p.line),
        (gapStop ls b).column⟩ := by
  have hFirst := hp.keptBefore_next hGaps
  have hRow :=
    rowOf_moved hp hGaps hIn hBelow hApart b.line (by omega)
      (by omega)
  have hAbove :=
    rowOf_moved hp hGaps hIn hBelow hApart (b.line - 1)
      (by omega) (by omega)
  have hPrevious :
      (p.moved rs).line + (b.line - p.line) - 1 =
        (p.moved rs).line + (b.line - 1 - p.line) := by
    omega
  rw [moved_eq_of_apart hp hGaps hIn hBelow hApart]
  unfold gapStop
  dsimp only
  rw [hRow, hPrevious, hAbove]
  have hPositive : 0 < b.line := by
    have hBounds := hp.line_bounds
      (List.ne_nil_of_length_pos (by have := hIn.1; omega))
    omega
  have hPositive' : 0 < (p.moved rs).line + (b.line - p.line) := by
    omega
  by_cases hNone :
      unindented (rowOf ls b.line.toNat) b.column.toNat = 0
  · rw [if_pos ⟨hNone, hPositive'⟩, if_pos ⟨hNone, hPositive⟩]
  · rw [if_neg (fun h => hNone h.1), if_neg (fun h => hNone h.1)]

/- A gap that stays has the same text. -/
theorem textIn_moved
    (hClear : b.IsClear rs) :
    (gapRegion (Text.keepRows (Region.cutIn rs) ls) (p.moved rs)
        (b.moved rs)).textIn (Text.keepRows (Region.cutIn rs) ls) =
      (gapRegion ls p b).textIn ls := by
  have hLine := hIn.1
  have hBounds := hp.line_bounds
    (List.ne_nil_of_length_pos (by omega))
  have hFirst := hp.keptBefore_next hGaps
  have hIn' := hClear.moved_isIn hIn hGaps
  have hStop := gapStop_moved hp hGaps hIn hBelow hApart
  have hStopIn := gapStop_isIn hIn
  have hStopIn' := gapStop_isIn hIn'
  have hBelowStop := (gapStop_bounds hIn).1
  have hUpTo := Position.atMost_iff.mp (gapStop_bounds hIn).2
  have hRows : ∀ k : Nat, p.line + 1 + k ≤ b.line →
      rowOf (Text.keepRows (Region.cutIn rs) ls)
          (((p.moved rs).line + 1).toNat + k) =
        rowOf ls ((p.line + 1).toNat + k) := by
    intro k hk
    have hRow :=
      rowOf_moved hp hGaps hIn hBelow hApart (p.line + 1 + k)
        (by omega) hk
    have hLeft :
        ((p.moved rs).line + (p.line + 1 + k - p.line)).toNat =
          ((p.moved rs).line + 1).toNat + k := by
      omega
    have hRight :
        (p.line + 1 + k).toNat = (p.line + 1).toNat + k := by
      omega
    rwa [hLeft, hRight] at hRow
  have hLast :=
    rowOf_moved hp hGaps hIn hBelow hApart (gapStop ls b).line
      (by omega) (by omega)
  have hCount :
      ((p.moved rs).line + ((gapStop ls b).line - p.line) -
        (p.moved rs).line - 1).toNat =
        ((gapStop ls b).line - p.line - 1).toNat := by
    omega
  have hBelow' : (p.moved rs).line + 1 < (b.moved rs).line := by
    rw [moved_eq_of_apart hp hGaps hIn hBelow hApart]
    dsimp only
    omega
  rw [textIn_gapRegion (by omega) hBelow' hIn',
    textIn_gapRegion hBounds.1 hBelow hIn, hStop]
  dsimp only
  rw [hLast, hCount]
  refine congrArg
    (fun ls => Text.ofLines (ls ++ [List.take _ _])) ?_
  apply List.map_congr_left
  intro k hk
  rw [List.mem_range] at hk
  exact hRows k (by omega)

/- A gap that stays is found again. -/
theorem gapFound_moved
    (hClear : b.IsClear rs) :
    (gapFound (Text.keepRows (Region.cutIn rs) ls) removable
        (p.moved rs) (b.moved rs)).trimmed =
      (gapFound ls removable p b).trimmed ∧
    ((gapFound (Text.keepRows (Region.cutIn rs) ls) removable
        (p.moved rs) (b.moved rs)).regions = [] ↔
      (gapFound ls removable p b).regions = []) := by
  have hRemoved :
      isRemovedGap (Text.keepRows (Region.cutIn rs) ls) removable
          (p.moved rs) (b.moved rs) =
        isRemovedGap ls removable p b := by
    unfold isRemovedGap
    rw [restOf_moved hp hGaps,
      textIn_moved hp hGaps hIn hBelow hApart hClear]
  have hProper :
      (gapRegion (Text.keepRows (Region.cutIn rs) ls) (p.moved rs)
          (b.moved rs)).start.before
          (gapRegion (Text.keepRows (Region.cutIn rs) ls)
            (p.moved rs) (b.moved rs)).stop =
        (gapRegion ls p b).start.before (gapRegion ls p b).stop := by
    rw [Bool.eq_iff_iff, Position.before_iff, Position.before_iff]
    simp only [gapRegion, Region.start, Region.stop]
    rw [gapStop_moved hp hGaps hIn hBelow hApart]
    dsimp only
    omega
  unfold gapFound
  dsimp only
  rw [hRemoved, hProper]
  split
  · split <;> simp
  · simp

end

end Whittle

------------------------------------------------------------
-- A Gap That Is Trimmed
------------------------------------------------------------

namespace Whittle

variable {ls : List Text} {removable : Text → Bool}
variable {rs : List Region} {p b : Position}

/- A gap that ends above takes the whole line above. -/
theorem gapStop_eq_of_above
    (hAbove : (gapStop ls b).line < b.line) :
    gapStop ls b =
        ⟨b.line - 1, (rowOf ls (b.line - 1).toNat).length⟩ ∧
      unindented (rowOf ls b.line.toNat) b.column.toNat = 0 := by
  unfold gapStop at hAbove ⊢
  dsimp only at hAbove ⊢
  split
  · rename_i hIndented
    exact ⟨rfl, hIndented.1⟩
  · rename_i hText
    rw [if_neg hText] at hAbove
    dsimp only at hAbove
    omega

variable (hp : p.IsMovable ls rs)
variable (hGaps : ∀ r ∈ rs, r.IsGap ls removable)
variable (hOrder : rs.Pairwise fun r s => r.endLine < s.beginLine)
variable (hIn : b.IsIn ls)
variable (hBelow : p.line + 1 < b.line)
variable (hTrimmed : gapRegion ls p b ∈ rs)

include hp hGaps hIn hBelow hTrimmed

/- The lines above the end of the gap are gone. -/
theorem keptBefore_gapStop :
    (Text.keptBefore (Region.cutIn rs)
        (gapStop ls b).line.toNat : Int) =
      (p.moved rs).line + 1 := by
  have hLine := hIn.1
  have hBounds := hp.line_bounds
    (List.ne_nil_of_length_pos (by omega))
  have hStop := (gapStop_bounds hIn).1
  have hGone : ∀ line, (p.line + 1).toNat ≤ line →
      line < (p.line + 1).toNat +
        ((gapStop ls b).line.toNat - (p.line + 1).toNat) →
      Region.cutIn rs line = none := by
    intro line hLe hLt
    have hRemoves : (gapRegion ls p b).removesLine line = true := by
      simp only [Region.removesLine, Bool.and_eq_true,
        decide_eq_true_eq]
      simp only [gapRegion]
      omega
    unfold Region.cutIn
    rw [if_pos (List.any_eq_true.mpr ⟨_, hTrimmed, hRemoves⟩)]
  have hCount := Text.keptBefore_add_of_gone hGone
  rw [Nat.add_sub_cancel' (by omega)] at hCount
  rw [hCount]
  exact hp.keptBefore_next hGaps

/- A node on the line where its gap ends follows at once. -/
theorem line_moved_of_within
    (hClear : b.IsClear rs)
    (hWithin : (gapStop ls b).line = b.line) :
    (b.moved rs).line = (p.moved rs).line + 1 := by
  obtain ⟨c, hCut, -⟩ := hClear.exists_cutIn hIn hGaps
  have hKept := keptBefore_gapStop hp hGaps hIn hBelow hTrimmed
  rw [hWithin] at hKept
  rw [Position.moved_eq hIn.1.1 hCut]
  exact hKept

section

variable (hAbove : (gapStop ls b).line < b.line)
variable (hApart : ∀ r ∈ rs,
  r.stop.atMost p = true ∨ r = gapRegion ls p b ∨
    b.line < r.beginLine)

include hOrder hAbove hApart

/- The line above the node is empty, the node's own stays. -/
theorem rows_trimmed :
    b.moved rs = ⟨(p.moved rs).line + 2, b.column⟩ ∧
      rowOf (Text.keepRows (Region.cutIn rs) ls)
          ((p.moved rs).line + 1).toNat = [] ∧
      rowOf (Text.keepRows (Region.cutIn rs) ls)
          ((p.moved rs).line + 2).toNat = rowOf ls b.line.toNat := by
  have hLine := hIn.1
  have hBounds := hp.line_bounds
    (List.ne_nil_of_length_pos (by omega))
  have hStop := (gapStop_eq_of_above hAbove).1
  have hKept := keptBefore_gapStop hp hGaps hIn hBelow hTrimmed
  rw [hStop] at hKept
  dsimp only at hKept
  have hCutAbove :
      Region.cutIn rs (b.line - 1).toNat =
        some (rowOf ls (b.line - 1).toNat).length := by
    have hEnd : (gapRegion ls p b).endLine = (b.line - 1).toNat := by
      simp only [gapRegion, hStop]
      omega
    rw [Region.cutIn_eq hGaps hOrder hTrimmed hEnd]
    simp [gapRegion, hStop]
  have hCut : Region.cutIn rs b.line.toNat = some 0 := by
    apply Region.cutIn_eq_zero hGaps
    intro r hr
    rcases hApart r hr with hUpTo | rfl | hAfter
    · rw [Position.atMost_iff] at hUpTo
      simp only [Region.stop] at hUpTo
      omega
    · simp only [gapRegion]
      omega
    · omega
  have hNext : b.line.toNat = (b.line - 1).toNat + 1 := by omega
  have hCount :
      Text.keptBefore (Region.cutIn rs) b.line.toNat =
        Text.keptBefore (Region.cutIn rs) (b.line - 1).toNat + 1 := by
    rw [hNext, Text.keptBefore, hCutAbove]
    rfl
  refine ⟨?_, ?_, ?_⟩
  · rw [Position.moved_eq hLine.1 hCut, hCount]
    congr 1
    · omega
    · omega
  · have hLast : (b.line - 1).toNat < ls.length := by omega
    have hRow := (Text.rowOf_keepRows hLast hCutAbove).2
    rw [List.drop_length] at hRow
    rwa [← hKept, Int.toNat_natCast]
  · have hLast : b.line.toNat < ls.length := by omega
    have hRow := (Text.rowOf_keepRows hLast hCut).2
    have hSame :
        ((p.moved rs).line + 2).toNat =
          Text.keptBefore (Region.cutIn rs) b.line.toNat := by
      omega
    rwa [List.drop_zero, ← hSame] at hRow

/- The gap of the node ends at the start of the empty line. -/
theorem gapStop_trimmed :
    gapStop (Text.keepRows (Region.cutIn rs) ls) (b.moved rs) =
      ⟨(p.moved rs).line + 1, 0⟩ := by
  have hFirst := hp.keptBefore_next hGaps
  have hIndented := (gapStop_eq_of_above hAbove).2
  obtain ⟨hMoved, hEmptyRow, hRow⟩ :=
    rows_trimmed hp hGaps hOrder hIn hBelow hTrimmed hAbove hApart
  have hPrevious :
      (p.moved rs).line + 2 - 1 = (p.moved rs).line + 1 := by
    omega
  rw [hMoved]
  unfold gapStop
  dsimp only
  rw [hRow, hIndented, if_pos ⟨rfl, by omega⟩, hPrevious, hEmptyRow]
  rfl

/-
  A gap that ends above the line of its node leaves an empty
  line, which is trimmed again without a region.
-/
theorem gapFound_trimmed
    (hClear : b.IsClear rs)
    (hEmpty : removable [] = true)
    (hRemoved : isRemovedGap ls removable p b = true) :
    (b.moved rs).line = (p.moved rs).line + 2 ∧
      gapFound (Text.keepRows (Region.cutIn rs) ls) removable
          (p.moved rs) (b.moved rs) =
        ⟨[], ⟨(p.moved rs).line + 1, 0⟩, true⟩ := by
  have hFirst := hp.keptBefore_next hGaps
  have hMoved :=
    (rows_trimmed hp hGaps hOrder hIn hBelow hTrimmed hAbove
      hApart).1
  have hStop :=
    gapStop_trimmed hp hGaps hOrder hIn hBelow hTrimmed hAbove
      hApart
  have hLine : (b.moved rs).line = (p.moved rs).line + 2 := by
    rw [hMoved]
  have hNone :
      ((p.moved rs).line + 1 - (p.moved rs).line - 1).toNat = 0 := by
    omega
  have hText :
      (gapRegion (Text.keepRows (Region.cutIn rs) ls) (p.moved rs)
          (b.moved rs)).textIn
          (Text.keepRows (Region.cutIn rs) ls) = [] := by
    rw [textIn_gapRegion (by omega) (by omega)
      (hClear.moved_isIn hIn hGaps), hStop]
    dsimp only
    rw [hNone]
    simp
  have hRest := (Bool.and_eq_true_iff.mp hRemoved).1
  refine ⟨hLine, ?_⟩
  unfold gapFound isRemovedGap
  rw [restOf_moved hp hGaps, hRest, hText, hEmpty]
  simp [gapRegion, hStop, Region.start, Region.stop,
    Position.before]

end

end Whittle
