import Mathlib.Data.List.Infix
import Whittle.Proofs.Text.Lines
import Whittle.Text.Blank

/-
  Searching in texts, line by line.

  Key definitions include:
    * `Text.outputLines`

  Main statements:
    * `Text.lines_induction`
    * `isWithin_append_cons`
    * `exists_splitAtFirst?`
    * `splitAtFirst?_append`
    * `splitAtFirst?_append_cons`
    * `Text.any_outputLines`
    * `Text.any_rowsFrom`

  What holds no line end is not found across one.
-/

------------------------------------------------------------
-- Searching Across A Character
------------------------------------------------------------

namespace Whittle

variable {needle : Text} {c : Char}

theorem isPrefixOf_append_cons
    (hc : c ∉ needle)
    (l t : Text) :
    needle.isPrefixOf (l ++ c :: t) = needle.isPrefixOf l := by
  rw [Bool.eq_iff_iff, List.isPrefixOf_iff_prefix,
    List.isPrefixOf_iff_prefix]
  constructor
  · intro hPrefix
    have hLine : l ++ [c] <+: l ++ c :: t :=
      ⟨t, by rw [List.append_assoc]; rfl⟩
    rcases List.prefix_or_prefix_of_prefix hPrefix hLine with
      hShort | hLong
    · rcases List.prefix_concat_iff.mp hShort with hEq | hShort
      · exact absurd (hEq ▸ List.mem_append_right l
          (List.mem_singleton_self c)) hc
      · exact hShort
    · exact absurd (hLong.subset
        (List.mem_append_right l (List.mem_singleton_self c))) hc
  · intro hPrefix
    exact hPrefix.trans (List.prefix_append l _)

theorem isWithin_append_cons
    (hc : c ∉ needle)
    (l t : Text) :
    isWithin needle (l ++ c :: t) =
      (isWithin needle l || isWithin needle t) := by
  induction l with
  | nil =>
      rw [List.nil_append, isWithin, isWithin]
      have hPrefix := isPrefixOf_append_cons hc [] t
      rw [List.nil_append] at hPrefix
      rw [hPrefix]
      cases needle <;> rfl
  | cons x l ih =>
      rw [List.cons_append, isWithin, isWithin, ih, Bool.or_assoc]
      have hPrefix := isPrefixOf_append_cons hc (x :: l) t
      rw [List.cons_append] at hPrefix
      rw [hPrefix]

theorem eq_of_splitAtFirst?
    {t before after : Text}
    (hSplit : splitAtFirst? needle t = some (before, after)) :
    t = before ++ needle ++ after := by
  induction t generalizing before after with
  | nil =>
      cases needle with
      | nil =>
          cases hSplit
          rfl
      | cons x needle => cases hSplit
  | cons x rest ih =>
      rw [splitAtFirst?] at hSplit
      by_cases hPrefix : needle.isPrefixOf (x :: rest) = true
      · rw [if_pos hPrefix] at hSplit
        rcases List.isPrefixOf_iff_prefix.mp hPrefix with
          ⟨more, hMore⟩
        cases hSplit
        rw [← hMore, List.drop_left]
        rfl
      · rw [if_neg hPrefix] at hSplit
        rcases Option.map_eq_some_iff.mp hSplit with
          ⟨⟨b, a⟩, hRest, hEq⟩
        cases hEq
        rw [ih hRest]
        rfl

/- What stands somewhere is found, there or before. -/
theorem exists_splitAtFirst?
    (needle before after : Text) :
    ∃ b a,
      splitAtFirst? needle (before ++ needle ++ after) =
          some (b, a) ∧
        b.length ≤ before.length := by
  induction before with
  | nil =>
      have hPrefix : needle.isPrefixOf (needle ++ after) = true :=
        List.isPrefixOf_iff_prefix.mpr (List.prefix_append needle after)
      rw [List.nil_append]
      cases hText : needle ++ after with
      | nil =>
          have hNeedle := (List.append_eq_nil_iff.mp hText).1
          exact ⟨[], [], by simp [splitAtFirst?, hNeedle], Nat.le_refl 0⟩
      | cons x rest =>
          rw [hText] at hPrefix
          rw [splitAtFirst?, if_pos hPrefix]
          exact ⟨[], _, rfl, Nat.le_refl 0⟩
  | cons x before ih =>
      rcases ih with ⟨b, a, hSplit, hLength⟩
      rw [List.cons_append, List.cons_append, splitAtFirst?, hSplit]
      split
      · exact ⟨[], _, rfl, Nat.zero_le _⟩
      · exact ⟨x :: b, a, rfl, Nat.succ_le_succ hLength⟩

theorem splitAtFirst?_append
    {t before after : Text}
    (hSplit : splitAtFirst? needle t = some (before, after))
    (more : Text) :
    splitAtFirst? needle (t ++ more) =
      some (before, after ++ more) := by
  induction t generalizing before after with
  | nil =>
      cases needle with
      | nil =>
          cases hSplit
          cases more <;> rfl
      | cons x needle => cases hSplit
  | cons x rest ih =>
      rw [splitAtFirst?] at hSplit
      rw [List.cons_append, splitAtFirst?]
      by_cases hPrefix : needle.isPrefixOf (x :: rest) = true
      · rw [if_pos hPrefix] at hSplit
        cases hSplit
        have hLength :=
          (List.isPrefixOf_iff_prefix.mp hPrefix).length_le
        have hLonger : needle.isPrefixOf (x :: (rest ++ more)) = true := by
          rw [List.isPrefixOf_iff_prefix] at hPrefix ⊢
          exact hPrefix.trans (List.prefix_append (x :: rest) more)
        rw [if_pos hLonger, ← List.cons_append,
          List.drop_append_of_le_length hLength]
      · rw [if_neg hPrefix] at hSplit
        rcases Option.map_eq_some_iff.mp hSplit with
          ⟨⟨b, a⟩, hRest, hEq⟩
        cases hEq
        have hLength := congrArg List.length (eq_of_splitAtFirst? hRest)
        rw [List.length_append, List.length_append] at hLength
        have hShorter :
            ¬ needle.isPrefixOf (x :: (rest ++ more)) = true := by
          rw [List.isPrefixOf_iff_prefix] at hPrefix ⊢
          intro hLonger
          have hWhole : x :: rest <+: x :: (rest ++ more) :=
            ⟨more, rfl⟩
          exact hPrefix (List.prefix_of_prefix_length_le hLonger hWhole
            (by rw [List.length_cons]; omega))
        rw [if_neg hShorter, ih hRest]
        rfl

theorem splitAtFirst?_append_cons
    (hSome : needle ≠ [])
    (hc : c ∉ needle)
    (l t : Text) :
    splitAtFirst? needle (l ++ c :: t) =
      match splitAtFirst? needle l with
      | some (before, after) => some (before, after ++ c :: t)
      | none =>
          (splitAtFirst? needle t).map fun (before, after) =>
            (l ++ c :: before, after) := by
  cases hSplit : splitAtFirst? needle l with
  | some parts => exact splitAtFirst?_append hSplit (c :: t)
  | none =>
      induction l with
      | nil =>
          have hPrefix := isPrefixOf_append_cons hc [] t
          rw [List.nil_append] at hPrefix
          have hNot : needle.isPrefixOf [] = false := by
            cases needle with
            | nil => exact absurd rfl hSome
            | cons x needle => rfl
          rw [List.nil_append, splitAtFirst?, hPrefix, hNot]
          rfl
      | cons x l ih =>
          rw [splitAtFirst?] at hSplit
          have hPrefix := isPrefixOf_append_cons hc (x :: l) t
          rw [List.cons_append] at hPrefix
          rw [List.cons_append, splitAtFirst?, hPrefix]
          by_cases hHere : needle.isPrefixOf (x :: l) = true
          · rw [if_pos hHere] at hSplit
            cases hSplit
          · rw [if_neg hHere, Option.map_eq_none_iff] at hSplit
            rw [if_neg hHere, ih hSplit]
            cases splitAtFirst? needle t <;> rfl

end Whittle

------------------------------------------------------------
-- Lines Of Output
------------------------------------------------------------

namespace Whittle

namespace Text

/-
  The lines of a text, without the empty one after the last
  newline.
-/
def outputLines
    (t : Text) : List Text :=
  if t.lines.getLast? = some [] then
    t.lines.dropLast
  else
    t.lines

/-
  A text is a line without newline, or such a line, its
  newline and the text after that.
-/
theorem lines_induction
    {P : Text → Prop}
    (hOpen : ∀ l, '\n' ∉ l → P l)
    (hLine : ∀ l t, '\n' ∉ l → P t → P (l ++ '\n' :: t))
    (t : Text) :
    P t := by
  have hAll : ∀ ls : List Text, (∀ l ∈ ls, '\n' ∉ l) →
      P (ofLines ls) := by
    intro ls hFree
    induction ls with
    | nil => exact hOpen [] (by simp)
    | cons l rest ih =>
        cases rest with
        | nil =>
            rw [ofLines_singleton]
            exact hOpen l (hFree l (by simp))
        | cons next more =>
            rw [ofLines_cons]
            exact hLine l _ (hFree l (by simp))
              (ih fun m hm => hFree m (List.mem_cons_of_mem l hm))
  rw [← ofLines_lines t]
  exact hAll t.lines fun l hl => newline_not_mem_lines hl

@[simp]
theorem outputLines_nil :
    outputLines [] = [] :=
  rfl

/- An open line is a line. -/
theorem outputLines_of_not_mem
    {l : Text}
    (hSome : l ≠ [])
    (hFree : '\n' ∉ l) :
    outputLines l = [l] := by
  unfold outputLines
  rw [lines_eq_singleton hFree]
  simp [hSome]

theorem outputLines_append
    {l : Text}
    (hFree : '\n' ∉ l)
    (t : Text) :
    outputLines (l ++ '\n' :: t) = l :: outputLines t := by
  have hSome := lines_ne_nil t
  unfold outputLines
  rw [lines_append hFree, List.getLast?_cons_of_ne_nil hSome,
    List.dropLast_cons_of_ne_nil hSome]
  split <;> rfl

/- A line is alone, unless there is nothing on it. -/
theorem outputLines_line
    {l : Text}
    (hFree : '\n' ∉ l) :
    outputLines l = if l.isEmpty then [] else [l] := by
  cases l with
  | nil => rfl
  | cons c l =>
      exact outputLines_of_not_mem (List.cons_ne_nil c l) hFree

/- Only a text without characters has no lines. -/
theorem outputLines_eq_nil_iff
    (t : Text) :
    outputLines t = [] ↔ t = [] := by
  induction t using Text.lines_induction with
  | hOpen l hLine =>
      rw [outputLines_line hLine]
      cases l <;> simp
  | hLine l t hLine ih =>
      rw [outputLines_append hLine]
      simp

end Text

end Whittle

------------------------------------------------------------
-- Searching Lines And Rows
------------------------------------------------------------

namespace Whittle

theorem isWithin_of_isWithin_nil
    {needle : Text}
    (hNil : isWithin needle [] = true)
    (t : Text) :
    isWithin needle t = true := by
  obtain rfl : needle = [] := List.isEmpty_iff.mp hNil
  cases t <;> rfl

namespace Text

variable {needle : Text} {c : Char}

/- An end of a row with nothing behind it opens no row. -/
theorem isWithin_row
    (hc : c ∉ needle)
    (l t : Text) :
    isWithin needle (l ++ c :: t) =
      (isWithin needle l || (!t.isEmpty && isWithin needle t)) := by
  rw [isWithin_append_cons hc]
  cases t with
  | cons d t => rfl
  | nil =>
      cases hNil : isWithin needle [] with
      | false => rfl
      | true => rw [isWithin_of_isWithin_nil hNil l]; rfl

/- What is on one line is found line by line. -/
theorem any_outputLines
    (hFree : '\n' ∉ needle)
    (t : Text) :
    (outputLines t).any (isWithin needle) =
      (!t.isEmpty && isWithin needle t) := by
  induction t using lines_induction with
  | hOpen l hLine =>
      rw [outputLines_line hLine]
      cases l <;> simp
  | hLine l t hLine ih =>
      rw [outputLines_append hLine, List.any_cons, ih,
        isWithin_row hFree]
      simp

/- Only a text without characters has no rows. -/
theorem rowsFrom_eq_nil_iff
    (row t : Text) :
    rowsFrom row t = [] ↔ row = [] ∧ t = [] := by
  fun_induction rowsFrom row t with
  | case1 row hNone => simpa using hNone
  | case2 row hSome => simpa using hSome
  | case3 row rest ih => simp
  | case4 row c rest hBoth hEnd ih => simp
  | case5 row c rest hBoth hEnd ih => simp [ih]

/- What is in one row is found row by row. -/
theorem any_rowsFrom
    (hFree : ∀ c ∈ needle, isRowEnd c = false)
    (row t : Text) :
    (rowsFrom row t).any (isWithin needle) =
      (!(row.reverse ++ t).isEmpty &&
        isWithin needle (row.reverse ++ t)) := by
  have hNot : ∀ c, isRowEnd c = true → c ∉ needle := by
    intro c hc hMem
    rw [hFree c hMem] at hc
    cases hc
  fun_induction rowsFrom row t with
  | case1 row hNone =>
      rw [List.isEmpty_iff] at hNone
      simp [hNone]
  | case2 row hSome =>
      have hRow : row ≠ [] := by simpa using hSome
      simp [hRow]
  | case3 row rest ih =>
      rw [List.any_cons, ih, isWithin_row (hNot '\r' (by decide))]
      have hNext := isWithin_row (hNot '\n' (by decide)) [] rest
      rw [List.nil_append] at hNext
      rw [hNext]
      cases hNil : isWithin needle [] with
      | false => simp
      | true => simp [isWithin_of_isWithin_nil hNil row.reverse]
  | case4 row c rest hBoth hEnd ih =>
      rw [List.any_cons, ih, isWithin_row (hNot c hEnd)]
      simp
  | case5 row c rest hBoth hEnd ih =>
      rw [ih]
      simp

end Text

end Whittle
