import Mathlib.Data.List.Forall2
import Whittle.Edit.Gap
import Whittle.Text.Charset

/-
  What texts weigh, and what editing them does to that.

  Key definitions include:
    * `weight`
    * `unended`

  Main statements:
    * `weight_le_of_sublist`
    * `Text.weight_unifyLineEnds_le`
    * `Text.weight_withoutBlankLines_le`

  Each character has a weight of its own, such as the number
  of bytes that write it.  Dropping blank lines may add one
  newline to a text that does not end with one, and nothing
  else makes a text heavier.
-/

------------------------------------------------------------
-- Weights
------------------------------------------------------------

namespace Whittle

theorem total_append
    (ms ns : List Nat) :
    total (ms ++ ns) = total ms + total ns := by
  induction ms with
  | nil => exact (Nat.zero_add _).symm
  | cons m rest ih =>
      rw [List.cons_append, total, total, ih, Nat.add_assoc]

variable {α : Type} {f : α → Nat} {xs ys : List α}

/- What the elements of a list weigh together. -/
def weight
    (f : α → Nat)
    (xs : List α) : Nat :=
  total (xs.map f)

@[simp]
theorem weight_nil :
    weight f [] = 0 :=
  rfl

@[simp]
theorem weight_cons
    (x : α) :
    weight f (x :: xs) = f x + weight f xs :=
  rfl

@[simp]
theorem weight_append :
    weight f (xs ++ ys) = weight f xs + weight f ys := by
  unfold weight
  rw [List.map_append, total_append]

/- Two weights of the same elements. -/
theorem weight_add
    (f g : α → Nat)
    (xs : List α) :
    weight (fun x => f x + g x) xs = weight f xs + weight g xs := by
  induction xs with
  | nil => rfl
  | cons x rest ih =>
      rw [weight_cons, weight_cons, weight_cons, ih]
      omega

theorem weight_le_of_forall₂
    (hAll : List.Forall₂ (fun x y => f y ≤ f x) xs ys) :
    weight f ys ≤ weight f xs := by
  induction hAll with
  | nil => exact Nat.le_refl 0
  | cons hFirst _ ih =>
      rw [weight_cons, weight_cons]
      exact Nat.add_le_add hFirst ih

theorem weight_le_of_sublist
    (hSub : xs.Sublist ys) :
    weight f xs ≤ weight f ys := by
  induction hSub with
  | slnil => exact Nat.le_refl 0
  | cons y _ ih =>
      rw [weight_cons]
      omega
  | cons_cons y _ ih =>
      rw [weight_cons, weight_cons]
      omega

theorem eq_of_weight_le
    (hPos : ∀ x, 0 < f x)
    (hSub : xs.Sublist ys)
    (hLe : weight f ys ≤ weight f xs) :
    xs = ys := by
  induction hSub with
  | slnil => rfl
  | cons y hRest _ =>
      have hRest := weight_le_of_sublist (f := f) hRest
      have hy := hPos y
      rw [weight_cons] at hLe
      omega
  | cons_cons y _ ih =>
      rw [weight_cons, weight_cons] at hLe
      rw [ih (by omega)]

end Whittle

------------------------------------------------------------
-- Ends
------------------------------------------------------------

namespace Whittle

variable {α : Type} [BEq α] [LawfulBEq α]
variable {f : α → Nat} {stop : α} {xs ys : List α}

/- One for a list that goes on after its last `stop`. -/
def unended
    (stop : α)
    (xs : List α) : Nat :=
  if xs.getLast?.all (· == stop) then 0 else 1

omit [LawfulBEq α] in
theorem unended_le_one :
    unended stop xs ≤ 1 := by
  unfold unended
  split <;> simp

theorem unended_concat :
    unended stop (xs ++ [stop]) = 0 := by
  simp [unended]

/- A list to which nothing is missing has ended, or is empty. -/
theorem eq_concat_of_unended
    (hEnded : unended stop xs = 0) :
    xs = [] ∨ ∃ before, xs = before ++ [stop] := by
  rcases List.eq_nil_or_concat xs with rfl | ⟨before, x, rfl⟩
  · exact .inl rfl
  · have hx : x = stop := by
      simpa [unended, List.concat_eq_append] using hEnded
    subst hx
    exact .inr ⟨before, List.concat_eq_append⟩

omit [LawfulBEq α] in
/-
  Leaving out elements may leave out the end, but then it
  leaves out at least that.
-/
theorem weight_add_unended_le
    (hPos : ∀ x, 0 < f x)
    (hSub : xs.Sublist ys) :
    weight f xs + unended stop xs ≤
      weight f ys + unended stop ys := by
  by_cases hLe : weight f ys ≤ weight f xs
  · obtain rfl := eq_of_weight_le hPos hSub hLe
    exact Nat.le_refl _
  · have hOne : unended stop xs ≤ 1 := unended_le_one
    omega

end Whittle

------------------------------------------------------------
-- Line Ends
------------------------------------------------------------

namespace Whittle

namespace Text

variable {f : Char → Nat} {t : Text}

/- A newline in the place of a line end weighs no more. -/
theorem weight_unifyLineEnds_le
    (hEnd : f '\n' ≤ f '\r') :
    weight f (unifyLineEnds t) ≤ weight f t := by
  fun_induction unifyLineEnds t with
  | case1 => exact Nat.le_refl 0
  | case2 rest ih =>
      simp only [weight_cons]
      omega
  | case3 c rest _ ih =>
      simp only [weight_cons]
      split
      · rename_i hc
        rw [hc]
        omega
      · omega

theorem eq_of_weight_unifyLineEnds
    (hEnd : f '\n' < f '\r')
    (hLe : weight f t ≤ weight f (unifyLineEnds t)) :
    unifyLineEnds t = t := by
  fun_induction unifyLineEnds t with
  | case1 => rfl
  | case2 rest _ =>
      have hRest :=
        weight_unifyLineEnds_le (t := rest) (Nat.le_of_lt hEnd)
      simp only [weight_cons] at hLe
      omega
  | case3 c rest _ ih =>
      have hRest :=
        weight_unifyLineEnds_le (t := rest) (Nat.le_of_lt hEnd)
      simp only [weight_cons] at hLe
      split at hLe
      · rename_i hc
        rw [hc] at hLe
        omega
      · rename_i hc
        rw [if_neg hc, ih (by omega)]

/- The last character of a text whose line ends are unified. -/
theorem getLast?_unifyLineEnds :
    (unifyLineEnds t).getLast? =
      t.getLast?.map fun c => if c = '\r' then '\n' else c := by
  fun_induction unifyLineEnds t with
  | case1 => rfl
  | case2 rest ih =>
      rw [List.getLast?_cons, List.getLast?_cons, ih,
        List.getLast?_cons]
      cases rest.getLast? <;> rfl
  | case3 c rest _ ih =>
      rw [List.getLast?_cons, List.getLast?_cons, ih]
      cases rest.getLast? <;> rfl

/- Unifying line ends does not take the last one away. -/
theorem unended_unifyLineEnds_le :
    unended '\n' (unifyLineEnds t) ≤ unended '\n' t := by
  unfold unended
  rw [getLast?_unifyLineEnds]
  cases t.getLast? with
  | none => simp
  | some c =>
      by_cases hc : c = '\n'
      · simp [hc]
      · simp only [Option.map_some, Option.all_some]
        split <;> simp [hc]

end Text

end Whittle

------------------------------------------------------------
-- Blank Lines
------------------------------------------------------------

namespace Whittle

namespace Text

variable {f : Char → Nat} {t : Text}

/- Lines that each end with a newline. -/
def ended
    (ls : List Text) : Text :=
  ls.flatMap fun l => l ++ ['\n']

/- Ending all lines of a text adds one newline to it. -/
theorem ended_lines :
    ended t.lines = t ++ ['\n'] := by
  induction t with
  | nil => rfl
  | cons c rest ih =>
      unfold lines
      by_cases hc : c = '\n'
      · rw [if_pos hc, hc]
        exact congrArg ('\n' :: ·) ih
      · rw [if_neg hc]
        cases hLines : lines rest with
        | nil => exact absurd hLines (lines_ne_nil rest)
        | cons line more =>
            rw [hLines] at ih
            exact congrArg (c :: ·) ih

theorem lines_concat :
    lines (t ++ ['\n']) = t.lines ++ [[]] := by
  induction t with
  | nil => rfl
  | cons c rest ih =>
      rw [List.cons_append, lines, lines, ih]
      by_cases hc : c = '\n'
      · rw [if_pos hc, if_pos hc]
        rfl
      · rw [if_neg hc, if_neg hc]
        cases hLines : lines rest with
        | nil => exact absurd hLines (lines_ne_nil rest)
        | cons line more => rfl

/- Fewer lines have fewer characters. -/
theorem ended_sublist
    {ls ls' : List Text}
    (hSub : ls.Sublist ls') :
    (ended ls).Sublist (ended ls') := by
  induction hSub with
  | slnil => exact .slnil
  | cons l _ ih => exact ih.trans (List.sublist_append_right _ _)
  | cons_cons l _ ih => exact (List.Sublist.refl _).append ih

/- Nothing is missing to lines that have ended. -/
theorem unended_ended
    (ls : List Text) :
    unended '\n' (ended ls) = 0 := by
  rcases List.eq_nil_or_concat ls with rfl | ⟨before, l, rfl⟩
  · rfl
  · have hLast :
        ended (before.concat l) = (ended before ++ l) ++ ['\n'] := by
      simp [ended]
    rw [hLast]
    exact unended_concat

/- What stays of a text is ended. -/
theorem unended_withoutBlankLines :
    unended '\n' (withoutBlankLines t) = 0 :=
  unended_ended _

/-
  Dropping blank lines does not make a text heavier, except
  for a newline that is missing at its end.
-/
theorem weight_withoutBlankLines_le :
    weight f (withoutBlankLines t) ≤
      weight f t + unended '\n' t * f '\n' := by
  have hKept :
      ∀ ls : List Text,
        (ended (ls.filter fun l => !l.all isLayout)).Sublist
          (ended ls) :=
    fun ls => ended_sublist List.filter_sublist
  have hEnd : unended '\n' t ≤ 1 := unended_le_one
  rcases Nat.le_one_iff_eq_zero_or_eq_one.mp hEnd with hNone | hOne
  · rw [hNone, Nat.zero_mul, Nat.add_zero]
    rcases eq_concat_of_unended hNone with rfl | ⟨before, rfl⟩
    · exact Nat.le_refl 0
    · have hLines :
          withoutBlankLines (before ++ ['\n']) =
            ended ((lines before).filter fun l => !l.all isLayout) := by
        unfold withoutBlankLines ended
        rw [lines_concat, List.filter_append]
        simp
      rw [hLines, ← ended_lines]
      exact weight_le_of_sublist (hKept (lines before))
  · have hAll := weight_le_of_sublist (f := f) (hKept t.lines)
    rw [ended_lines, weight_append] at hAll
    rw [hOne, Nat.one_mul]
    exact hAll

end Text

end Whittle
