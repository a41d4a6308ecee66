import Mathlib.Data.List.Basic
import Whittle.Edit.Region

/-
  Lines as parts of a text.

  Key definitions include:
    * `rowOf`

  Main statements:
    * `Text.lines_append`
    * `Text.lines_ofLines`
    * `Text.drop_ofLines`
    * `Text.take_ofLines`

  What stands before a place of a text is made of the lines
  before the line of the place and of the start of that line.
-/

------------------------------------------------------------
-- Splitting At Newlines
------------------------------------------------------------

namespace Whittle

namespace Text

theorem lines_eq_singleton
    {s : Text}
    (hFree : '\n' ∉ s) :
    lines s = [s] := by
  induction s with
  | nil => rfl
  | cons c rest ih =>
      simp only [List.mem_cons, not_or] at hFree
      have hc : c ≠ '\n' := fun hEq => hFree.1 hEq.symm
      simp [lines, hc, ih hFree.2]

theorem lines_append
    {s : Text}
    (hFree : '\n' ∉ s)
    (t : Text) :
    lines (s ++ '\n' :: t) = s :: lines t := by
  induction s with
  | nil => simp [lines]
  | cons c rest ih =>
      simp only [List.mem_cons, not_or] at hFree
      have hc : c ≠ '\n' := fun hEq => hFree.1 hEq.symm
      simp [lines, hc, ih hFree.2]

/- No line holds a newline. -/
theorem newline_not_mem_lines
    {t l : Text}
    (hLine : l ∈ lines t) :
    '\n' ∉ l := by
  induction t generalizing l with
  | nil =>
      simp only [lines, List.mem_singleton] at hLine
      simp [hLine]
  | cons c rest ih =>
      unfold lines at hLine
      split at hLine
      · rcases List.mem_cons.mp hLine with rfl | hRest
        · simp
        · exact ih hRest
      · rename_i hc
        split at hLine
        · simp only [List.mem_singleton] at hLine
          simp [hLine, Ne.symm hc]
        · rename_i line more hLines
          rw [hLines] at ih
          rcases List.mem_cons.mp hLine with rfl | hRest
          · simp [Ne.symm hc, ih (List.mem_cons_self ..)]
          · exact ih (List.mem_cons_of_mem line hRest)

@[simp]
theorem ofLines_singleton
    (l : Text) :
    ofLines [l] = l := by
  simp [ofLines, List.intercalate]

theorem ofLines_cons_of_ne_nil
    (l : Text)
    {rest : List Text}
    (hSome : rest ≠ []) :
    ofLines (l :: rest) = l ++ '\n' :: ofLines rest := by
  cases rest with
  | nil => exact absurd rfl hSome
  | cons next more => exact ofLines_cons l next more

/- Lines that are joined can be split again. -/
theorem lines_ofLines
    {ls : List Text}
    (hSome : ls ≠ [])
    (hFree : ∀ l ∈ ls, '\n' ∉ l) :
    lines (ofLines ls) = ls := by
  induction ls with
  | nil => exact absurd rfl hSome
  | cons l rest ih =>
      cases rest with
      | nil =>
          rw [ofLines_singleton]
          exact lines_eq_singleton (hFree l (by simp))
      | cons next more =>
          rw [ofLines_cons, lines_append (hFree l (by simp)),
            ih (by simp)
              (fun l' hl' => hFree l' (List.mem_cons_of_mem l hl'))]

end Text

end Whittle

------------------------------------------------------------
-- What Stands Before And After A Place
------------------------------------------------------------

namespace Whittle

/- The line at an index, nothing outside of the text. -/
def rowOf
    (ls : List Text)
    (line : Nat) : Text :=
  (ls[line]?).getD []

/- The line at an index is one of the lines. -/
theorem rowOf_eq
    {ls : List Text}
    {line : Nat}
    (hLine : line < ls.length) :
    rowOf ls line = ls[line] := by
  simp [rowOf, hLine]

/- The line at an index is one of the lines. -/
theorem rowOf_mem
    {ls : List Text}
    {line : Nat}
    (hLine : line < ls.length) :
    rowOf ls line ∈ ls := by
  rw [rowOf_eq hLine]
  exact List.getElem_mem hLine

@[simp]
theorem rowOf_succ
    (l : Text)
    (rest : List Text)
    (line : Nat) :
    rowOf (l :: rest) (line + 1) = rowOf rest line := by
  simp [rowOf]

@[simp]
theorem rowOf_zero
    (l : Text)
    (rest : List Text) :
    rowOf (l :: rest) 0 = l := by
  simp [rowOf]

namespace Region

@[simp]
theorem lineOffset_zero
    (ls : List Text) :
    lineOffset ls 0 = 0 :=
  rfl

@[simp]
theorem lineOffset_cons
    (l : Text)
    (rest : List Text)
    (line : Nat) :
    lineOffset (l :: rest) (line + 1) =
      l.length + 1 + lineOffset rest line :=
  rfl

/- The offset of a line, counted from an earlier one. -/
theorem lineOffset_add
    (ls : List Text)
    (line n : Nat) :
    lineOffset ls (line + n) =
      lineOffset ls line + lineOffset (ls.drop line) n := by
  induction line generalizing ls with
  | zero => simp
  | succ line ih =>
      cases ls with
      | nil => simp [lineOffset, total]
      | cons l rest =>
          rw [Nat.add_right_comm, lineOffset_cons, lineOffset_cons,
            ih rest, List.drop_succ_cons]
          omega

end Region

namespace Text

open Region (lineOffset)

theorem drop_line
    (l t : Text)
    (n : Nat) :
    (l ++ '\n' :: t).drop (l.length + 1 + n) = t.drop n := by
  rw [Nat.add_assoc, ← List.drop_drop, List.drop_left,
    Nat.add_comm, List.drop_succ_cons]

theorem take_line
    (l t : Text)
    (n : Nat) :
    (l ++ '\n' :: t).take (l.length + 1 + n) =
      l ++ '\n' :: t.take n := by
  rw [Nat.add_assoc, List.take_length_add_append, Nat.add_comm,
    List.take_succ_cons]

theorem drop_ofLines
    {ls : List Text}
    {line : Nat}
    (hLine : line < ls.length) :
    (ofLines ls).drop (lineOffset ls line) =
      ofLines (ls.drop line) := by
  induction ls generalizing line with
  | nil => simp at hLine
  | cons l rest ih =>
      cases line with
      | zero => rfl
      | succ line =>
          cases rest with
          | nil => simp at hLine
          | cons next more =>
              have hLine' : line < (next :: more).length := by
                simpa using hLine
              rw [Region.lineOffset_cons, ofLines_cons, drop_line,
                ih hLine', List.drop_succ_cons]

theorem take_ofLines
    {ls : List Text}
    {line column : Nat}
    (hLine : line < ls.length)
    (hColumn : column ≤ (rowOf ls line).length) :
    (ofLines ls).take (lineOffset ls line + column) =
      ofLines (ls.take line ++ [(rowOf ls line).take column]) := by
  induction ls generalizing line with
  | nil => simp at hLine
  | cons l rest ih =>
      cases line with
      | zero =>
          rw [rowOf_zero] at hColumn
          cases rest with
          | nil => simp
          | cons next more =>
              simp [ofLines_cons, List.take_append_of_le_length hColumn]
      | succ line =>
          cases rest with
          | nil => simp at hLine
          | cons next more =>
              have hLine' : line < (next :: more).length := by
                simpa using hLine
              rw [rowOf_succ] at hColumn ⊢
              rw [Region.lineOffset_cons, ofLines_cons,
                Nat.add_assoc (l.length + 1), take_line,
                ih hLine' hColumn, List.take_succ_cons,
                List.cons_append]
              cases hHead : (next :: more).take line with
              | nil => simp [ofLines_cons]
              | cons first others => simp [ofLines_cons]

theorem length_ofLines_concat
    (ls : List Text)
    (l : Text) :
    (ofLines (ls ++ [l])).length =
      lineOffset ls ls.length + l.length := by
  induction ls with
  | nil => simp
  | cons first rest ih =>
      rw [List.cons_append, ofLines_cons_of_ne_nil first (by simp),
        List.length_cons, Region.lineOffset_cons,
        List.length_append, List.length_cons, ih]
      omega

theorem take_drop_ofLines
    {ls : List Text}
    {first last column : Nat}
    (hLe : first ≤ last)
    (hLast : last < ls.length)
    (hColumn : column ≤ (rowOf ls last).length) :
    ((ofLines ls).drop (lineOffset ls first)).take
        (lineOffset ls last + column - lineOffset ls first) =
      ofLines
        ((ls.take last).drop first ++
          [(rowOf ls last).take column]) := by
  obtain ⟨n, rfl⟩ := Nat.exists_eq_add_of_le hLe
  have hRow : rowOf (ls.drop first) n = rowOf ls (first + n) := by
    simp [rowOf]
  have hOffset :
      lineOffset ls (first + n) + column - lineOffset ls first =
        lineOffset (ls.drop first) n + column := by
    rw [Region.lineOffset_add]
    omega
  rw [drop_ofLines (by omega), hOffset,
    take_ofLines (by rw [List.length_drop]; omega)
      (by rw [hRow]; exact hColumn),
    hRow, List.drop_take, Nat.add_sub_cancel_left]

end Text

end Whittle
