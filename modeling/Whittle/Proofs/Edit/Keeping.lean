import Mathlib.Data.List.Pairwise
import Whittle.Proofs.Edit.Trimming

/-
  The lines of a text that is trimmed.

  Key definitions include:
    * `Text.keepRows`
    * `Text.keptBefore`
    * `Region.cutIn`

  Main statements:
    * `Text.withoutFrom_ofLines`
    * `Region.any_covers_eq`
    * `Text.without_gaps`

  A gap starts with a line.  What is left of the text is
  therefore known line by line: a line is gone together with
  its newline, or it has lost some characters at its start.
-/

------------------------------------------------------------
-- Lines That Are Kept
------------------------------------------------------------

namespace Whittle

namespace Text

/-
  The lines without those that are gone, each without the
  characters that are cut off at its start.
-/
def keepRows
    (cut : Nat → Option Nat) : List Text → List Text
  | [] => []
  | l :: rest =>
      match cut 0 with
      | none => keepRows (fun line => cut (line + 1)) rest
      | some c =>
          l.drop c :: keepRows (fun line => cut (line + 1)) rest

/- How many of the lines above a line are kept. -/
def keptBefore
    (cut : Nat → Option Nat) : (line : Nat) → Nat
  | 0 => 0
  | line + 1 =>
      keptBefore cut line + if (cut line).isSome then 1 else 0

/- A character is gone with its line or from its start. -/
def isCutOff
    (cut : Nat → Option Nat)
    (line column : Nat) : Bool :=
  match cut line with
  | none => true
  | some c => column < c

variable {cut : Nat → Option Nat} {ls : List Text}

theorem keptBefore_succ
    (line : Nat) :
    keptBefore cut (line + 1) =
      (if (cut 0).isSome then 1 else 0) +
        keptBefore (fun line => cut (line + 1)) line := by
  induction line with
  | zero => simp [keptBefore]
  | succ line ih =>
      rw [keptBefore, ih, keptBefore]
      omega

/- Below a kept line there is one more. -/
theorem keptBefore_lt
    {m n c : Nat}
    (hLt : m < n)
    (hCut : cut m = some c) :
    keptBefore cut m < keptBefore cut n := by
  induction n, hLt using Nat.le_induction with
  | base => simp [keptBefore, hCut]
  | succ n hLe ih =>
      rw [keptBefore]
      omega

theorem length_keepRows
    (cut : Nat → Option Nat)
    (ls : List Text) :
    (keepRows cut ls).length = keptBefore cut ls.length := by
  induction ls generalizing cut with
  | nil => rfl
  | cons l rest ih =>
      rw [List.length_cons, keptBefore_succ, keepRows, ← ih]
      cases cut 0 with
      | none => simp
      | some c =>
          rw [List.length_cons, Nat.add_comm]
          rfl

theorem keepRows_append
    (cut : Nat → Option Nat)
    (ls ms : List Text) :
    keepRows cut (ls ++ ms) =
      keepRows cut ls ++
        keepRows (fun line => cut (ls.length + line)) ms := by
  induction ls generalizing cut with
  | nil => simp [keepRows]
  | cons l rest ih =>
      have hShift :
          (fun line => cut (rest.length + line + 1)) =
            fun line => cut ((l :: rest).length + line) := by
        funext line
        rw [List.length_cons]
        congr 1
        omega
      rw [List.cons_append, keepRows, keepRows, ih, hShift]
      cases cut 0 <;> rfl

theorem keepRows_concat
    {line c : Nat}
    (hCut : cut line = some c)
    (hLine : line ≤ ls.length)
    (l : Text) :
    keepRows cut (ls.take line ++ [l]) =
      keepRows cut (ls.take line) ++ [l.drop c] := by
  rw [keepRows_append, List.length_take, Nat.min_eq_left hLine]
  simp [keepRows, hCut]

theorem length_keepRows_take
    (cut : Nat → Option Nat)
    {line : Nat}
    (hLine : line ≤ ls.length) :
    (keepRows cut (ls.take line)).length = keptBefore cut line := by
  rw [length_keepRows, List.length_take, Nat.min_eq_left hLine]

/- Where a kept line is found, and what is left of it. -/
theorem rowOf_keepRows
    {line c : Nat}
    (hLine : line < ls.length)
    (hCut : cut line = some c) :
    keptBefore cut line < (keepRows cut ls).length ∧
      rowOf (keepRows cut ls) (keptBefore cut line) =
        (rowOf ls line).drop c := by
  have hSplit :
      keepRows cut ls =
        keepRows cut (ls.take line) ++
          (rowOf ls line).drop c ::
            keepRows (fun n => cut (line + (n + 1)))
              (ls.drop (line + 1)) := by
    conv => lhs; rw [← List.take_append_drop line ls]
    rw [List.drop_eq_getElem_cons hLine, keepRows_append,
      keepRows, rowOf_eq hLine]
    simp [hCut, Nat.min_eq_left (Nat.le_of_lt hLine)]
  have hLength := length_keepRows_take cut (Nat.le_of_lt hLine)
  rw [hSplit, ← hLength]
  simp [rowOf]

theorem keepRows_ne_nil
    (cut : Nat → Option Nat)
    (hSome : ls ≠ [])
    (hLast : (cut (ls.length - 1)).isSome) :
    keepRows cut ls ≠ [] := by
  intro hNone
  have hPositive := List.length_pos_iff.mpr hSome
  have hLength := length_keepRows cut ls
  have hCount : ls.length = ls.length - 1 + 1 := by omega
  rw [hNone, hCount, keptBefore, if_pos hLast] at hLength
  simp at hLength

/- What is kept of lines has no newlines either. -/
theorem newline_not_mem_keepRows
    (cut : Nat → Option Nat)
    (hFree : ∀ l ∈ ls, '\n' ∉ l) :
    ∀ l ∈ keepRows cut ls, '\n' ∉ l := by
  induction ls generalizing cut with
  | nil => simp [keepRows]
  | cons first rest ih =>
      have hRest :=
        ih (fun line => cut (line + 1))
          (fun l hl => hFree l (List.mem_cons_of_mem first hl))
      rw [keepRows]
      cases cut 0 with
      | none => exact hRest
      | some c =>
          intro l hl
          rcases List.mem_cons.mp hl with rfl | hl
          · intro hNewline
            exact hFree first (by simp) (List.mem_of_mem_drop hNewline)
          · exact hRest l hl

variable {pos : Nat} {isErased : Nat → Bool}

/- Erasing the start of a row leaves the rest of the text. -/
theorem withoutFrom_row
    (row : Text)
    {c : Nat}
    (hc : c ≤ row.length)
    (hRow : ∀ column < row.length,
      isErased (pos + column) = decide (column < c))
    (rest : Text) :
    withoutFrom pos isErased (row ++ rest) =
      row.drop c ++
        withoutFrom (pos + row.length) isErased rest := by
  have hCut : ∀ o, pos ≤ o → o < pos + c → isErased o = true := by
    intro o hLe hLt
    have hAt := hRow (o - pos) (by omega)
    rw [Nat.add_sub_cancel' hLe] at hAt
    rw [hAt, decide_eq_true_eq]
    omega
  have hKeep : ∀ o, pos + c ≤ o →
      o < pos + c + (row.length - c) → isErased o = false := by
    intro o hLe hLt
    have hAt := hRow (o - pos) (by omega)
    rw [Nat.add_sub_cancel' (by omega)] at hAt
    rw [hAt, decide_eq_false_iff_not]
    omega
  rw [withoutFrom_drop hCut, withoutFrom_keep hKeep,
    List.drop_append_of_le_length hc, List.take_left' (by simp),
    List.drop_left' (by simp), Nat.add_assoc,
    Nat.add_sub_cancel' hc]

/-
  A text is left with what is kept of its lines, if the test
  erases just what is cut off.  The last line is not gone.
-/
theorem withoutFrom_ofLines
    (hSome : ls ≠ [])
    (hLast : (cut (ls.length - 1)).isSome)
    (hWithin : ∀ line < ls.length, ∀ c ∈ cut line,
      c ≤ (rowOf ls line).length)
    (hErased : ∀ line < ls.length,
      ∀ column ≤ (rowOf ls line).length,
        isErased (pos + Region.lineOffset ls line + column) =
          isCutOff cut line column) :
    withoutFrom pos isErased (ofLines ls) =
      ofLines (keepRows cut ls) := by
  induction ls generalizing pos cut with
  | nil => exact absurd rfl hSome
  | cons l rest ih =>
      have hRow : ∀ column ≤ l.length,
          isErased (pos + column) = isCutOff cut 0 column := by
        simpa using hErased 0 (by simp)
      cases rest with
      | nil =>
          cases hCut : cut 0 with
          | none => simp [hCut] at hLast
          | some c =>
              have hc : c ≤ l.length := by
                simpa using hWithin 0 (by simp) c hCut
              simp only [isCutOff, hCut] at hRow
              have hText := withoutFrom_row l hc
                (fun column hLt => hRow column (Nat.le_of_lt hLt)) []
              simpa [keepRows, hCut, withoutFrom] using hText
      | cons next more =>
          have hLast' :
              (cut ((next :: more).length - 1 + 1)).isSome := by
            simpa using hLast
          have hMore :
              withoutFrom (pos + (l.length + 1)) isErased
                  (ofLines (next :: more)) =
                ofLines (keepRows (fun line => cut (line + 1))
                  (next :: more)) := by
            apply ih (by simp) hLast'
            · intro line hLine c hc
              simpa using hWithin (line + 1) (by simpa using hLine) c hc
            · intro line hLine column hColumn
              have hAt := hErased (line + 1) (by simpa using hLine)
                column (by simpa using hColumn)
              rw [Region.lineOffset_cons, ← Nat.add_assoc] at hAt
              exact hAt
          have hKept := keepRows_ne_nil
            (fun line => cut (line + 1))
            (List.cons_ne_nil next more) hLast'
          rw [ofLines_cons_of_ne_nil l (by simp), keepRows]
          cases hCut : cut 0 with
          | none =>
              simp only [isCutOff, hCut] at hRow
              have hGone : ∀ o, pos ≤ o →
                  o < pos + (l.length + 1) → isErased o = true := by
                intro o hLe hLt
                have hAt := hRow (o - pos) (by omega)
                rwa [Nat.add_sub_cancel' hLe] at hAt
              rw [withoutFrom_drop hGone]
              have hRest := drop_line l (ofLines (next :: more)) 0
              rw [Nat.add_zero, List.drop_zero] at hRest
              rw [hRest]
              exact hMore
          | some c =>
              have hc : c ≤ l.length := by
                simpa using hWithin 0 (by simp) c hCut
              simp only [isCutOff, hCut] at hRow
              have hText :=
                withoutFrom_row (l ++ ['\n']) (c := c)
                  (by simp; omega)
                  (fun column hLt => hRow column (by
                    simp at hLt
                    omega))
                  (ofLines (next :: more))
              dsimp only
              rw [ofLines_cons_of_ne_nil _ hKept, ← hMore]
              simpa [List.drop_append_of_le_length hc] using hText

end Text

end Whittle

------------------------------------------------------------
-- Lines Below Gaps
------------------------------------------------------------

namespace Whittle

namespace Region

/- A region takes a line away, together with its newline. -/
def removesLine
    (r : Region)
    (line : Nat) : Bool :=
  r.beginLine ≤ line && line < r.endLine

/- What regions that start with a line cut off from a line. -/
def cutIn
    (rs : List Region)
    (line : Nat) : Option Nat :=
  if rs.any (·.removesLine line) then
    none
  else
    match rs.find? fun r => r.endLine = (line : Int) with
    | none => some 0
    | some r => some r.endColumn.toNat

variable {ls : List Text} {removable : Text → Bool}
variable {r : Region} {rs : List Region}

/- A gap covers what stands between its start and its stop. -/
theorem IsGap.covers_offsetIn
    (hGap : r.IsGap ls removable)
    {p : Position}
    (hIn : p.IsIn ls) :
    r.covers ls (p.offsetIn ls) = true ↔
      r.start.atMost p = true ∧ p.before r.stop = true := by
  rw [hGap.covers_iff]
  constructor
  · rintro ⟨hStart, hStop⟩
    constructor
    · unfold Position.atMost
      rw [Bool.not_eq_true', Bool.eq_false_iff]
      intro hBefore
      have hLt := Position.offsetIn_lt hIn hGap.start_isIn hBefore
      omega
    · by_contra hNot
      have hLe : r.stop.atMost p = true := by
        unfold Position.atMost
        rwa [Bool.not_eq_true', Bool.eq_false_iff]
      have hOffset :=
        Position.offsetIn_le hGap.stop_isIn.1.1 hIn.1.2 hLe
      omega
  · rintro ⟨hStart, hStop⟩
    exact ⟨Position.offsetIn_le hGap.line hIn.1.2 hStart,
      Position.offsetIn_lt hIn hGap.stop_isIn hStop⟩

/- A gap does not end above the line that it starts with. -/
theorem IsGap.lines
    (hGap : r.IsGap ls removable) :
    r.beginLine ≤ r.endLine := by
  have hLe := Position.atMost_iff.mp hGap.atMost
  simp only [start, stop] at hLe
  omega

/- A gap covers lines that it takes away and the start of one. -/
theorem IsGap.covers_line
    (hGap : r.IsGap ls removable)
    {line column : Nat}
    (hLine : line < ls.length)
    (hColumn : column ≤ (rowOf ls line).length) :
    r.covers ls (lineOffset ls line + column) = true ↔
      r.removesLine line = true ∨
        r.endLine = line ∧ column < r.endColumn := by
  have hIn : (⟨line, column⟩ : Position).IsIn ls := by
    refine ⟨⟨?_, ?_⟩, ?_, ?_⟩ <;> dsimp only <;> simp <;> omega
  have hOffset := Position.offsetIn_eq hIn
  have hLe := Position.atMost_iff.mp hGap.atMost
  have hStart := hGap.column
  simp only [Int.toNat_natCast] at hOffset
  rw [← hOffset, hGap.covers_offsetIn hIn, Position.atMost_iff,
    Position.before_iff]
  simp only [start, stop, removesLine, Bool.and_eq_true,
    decide_eq_true_eq] at *
  omega

/- Of two gaps in order one ends above the other. -/
theorem eq_or_above
    (hOrder : rs.Pairwise fun r s => r.endLine < s.beginLine)
    {s : Region}
    (hr : r ∈ rs)
    (hs : s ∈ rs) :
    r = s ∨ r.endLine < s.beginLine ∨ s.endLine < r.beginLine := by
  have hSymm :
      Std.Symm fun r s : Region =>
        r.endLine < s.beginLine ∨ s.endLine < r.beginLine :=
    ⟨fun _ _ => Or.symm⟩
  have hApart :
      rs.Pairwise fun r s =>
        r.endLine < s.beginLine ∨ s.endLine < r.beginLine :=
    hOrder.imp .inl
  by_cases hEq : r = s
  · exact .inl hEq
  · exact .inr (hApart.forall hr hs hEq)

/- A gap that ends on a line tells what is cut off there. -/
theorem cutIn_eq
    (hGaps : ∀ r ∈ rs, r.IsGap ls removable)
    (hOrder : rs.Pairwise fun r s => r.endLine < s.beginLine)
    (hr : r ∈ rs)
    {line : Nat}
    (hLine : r.endLine = line) :
    cutIn rs line = some r.endColumn.toNat := by
  have hLines := (hGaps r hr).lines
  have hStays : rs.any (·.removesLine line) = false := by
    rw [List.any_eq_false]
    intro s hs
    simp only [removesLine, Bool.and_eq_true, decide_eq_true_eq]
    rcases eq_or_above hOrder hr hs with rfl | hApart <;> omega
  cases hFound : rs.find? fun r => r.endLine = (line : Int) with
  | none =>
      have hNone := List.find?_eq_none.mp hFound r hr
      simp [hLine] at hNone
  | some s =>
      have hs := List.mem_of_find?_eq_some hFound
      have hEnd : s.endLine = line := by
        simpa using List.find?_some hFound
      have hLines' := (hGaps s hs).lines
      have hSame : r = s := by
        rcases eq_or_above hOrder hr hs with hEq | hApart
        · exact hEq
        · omega
      simp [cutIn, hStays, hFound, hSame]

/- What gaps cover, line by line. -/
theorem any_covers_eq
    (hGaps : ∀ r ∈ rs, r.IsGap ls removable)
    (hOrder : rs.Pairwise fun r s => r.endLine < s.beginLine)
    {line column : Nat}
    (hLine : line < ls.length)
    (hColumn : column ≤ (rowOf ls line).length) :
    (rs.any fun r =>
        r.covers ls (lineOffset ls line + column)) =
      Text.isCutOff (cutIn rs) line column := by
  rw [Bool.eq_iff_iff, List.any_eq_true]
  constructor
  · rintro ⟨r, hr, hCovers⟩
    have hGap := hGaps r hr
    rcases (hGap.covers_line hLine hColumn).mp hCovers with
      hGone | ⟨hEnd, hLt⟩
    · have hAny : rs.any (·.removesLine line) = true :=
        List.any_eq_true.mpr ⟨r, hr, hGone⟩
      simp [Text.isCutOff, cutIn, hAny]
    · rw [Text.isCutOff, cutIn_eq hGaps hOrder hr hEnd,
        decide_eq_true_eq]
      omega
  · intro hCut
    by_cases hAny : rs.any (·.removesLine line) = true
    · rcases List.any_eq_true.mp hAny with ⟨r, hr, hGone⟩
      exact ⟨r, hr,
        ((hGaps r hr).covers_line hLine hColumn).mpr (.inl hGone)⟩
    · cases hFound : rs.find? fun r => r.endLine = (line : Int) with
      | none => simp [Text.isCutOff, cutIn, hAny, hFound] at hCut
      | some r =>
          have hr := List.mem_of_find?_eq_some hFound
          have hEnd : r.endLine = line := by
            simpa using List.find?_some hFound
          simp only [Text.isCutOff, cutIn, hAny, hFound,
            Bool.false_eq_true, if_false, decide_eq_true_eq] at hCut
          exact ⟨r, hr, ((hGaps r hr).covers_line hLine hColumn).mpr
            (.inr ⟨hEnd, by omega⟩)⟩

/- Gaps leave something of a line that they do not take away. -/
theorem cutIn_le
    (hGaps : ∀ r ∈ rs, r.IsGap ls removable)
    {line c : Nat}
    (hCut : cutIn rs line = some c) :
    c ≤ (rowOf ls line).length := by
  unfold cutIn at hCut
  split at hCut
  · cases hCut
  · split at hCut
    · cases hCut
      exact Nat.zero_le _
    · rename_i r hFound
      cases hCut
      have hEnd : r.endLine = line := by
        simpa using List.find?_some hFound
      have hIn :=
        (hGaps r (List.mem_of_find?_eq_some hFound)).stop_isIn
      have hColumn := hIn.2
      simp only [stop, hEnd, Int.toNat_natCast] at hColumn
      omega

/- Gaps leave the last line in the text. -/
theorem isSome_cutIn_last
    (hGaps : ∀ r ∈ rs, r.IsGap ls removable) :
    (cutIn rs (ls.length - 1)).isSome = true := by
  have hStays :
      rs.any (·.removesLine (ls.length - 1)) = false := by
    rw [List.any_eq_false]
    intro r hr
    have hLast := (hGaps r hr).stop_isIn.1.2
    simp only [stop] at hLast
    simp only [removesLine, Bool.and_eq_true, decide_eq_true_eq]
    omega
  unfold cutIn
  rw [hStays]
  split
  · contradiction
  · split <;> rfl

end Region

/- What gaps leave of a text. -/
theorem Text.without_gaps
    {ls : List Text}
    {removable : Text → Bool}
    {rs : List Region}
    (hSome : ls ≠ [])
    (hGaps : ∀ r ∈ rs, r.IsGap ls removable)
    (hOrder : rs.Pairwise fun r s => r.endLine < s.beginLine) :
    ((Text.ofLines ls).without fun o =>
        rs.any (·.covers ls o)) =
      Text.ofLines (keepRows (Region.cutIn rs) ls) := by
  apply withoutFrom_ofLines hSome (Region.isSome_cutIn_last hGaps)
  · intro line hLine c hCut
    exact Region.cutIn_le hGaps hCut
  · intro line hLine column hColumn
    rw [Nat.zero_add]
    exact Region.any_covers_eq hGaps hOrder hLine hColumn

end Whittle
