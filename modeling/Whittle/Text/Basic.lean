/-
  Texts as lists of characters: lines, searching, trimming
  and slices.

  Key definitions include:
    * `Text`
    * `Text.lines`
    * `Text.ofLines`
    * `isWithin`
    * `splitAtFirst?`
    * `sliceFrom`
    * `sliceUpTo`
    * `total`
    * `Text.isAtMost`

  Key theorems include:
    * `Text.lines_ne_nil`
    * `Text.ofLines_lines`
-/

------------------------------------------------------------
-- Lines
------------------------------------------------------------

namespace Whittle

/- A text is the list of its characters. -/
abbrev Text :=
  List Char

namespace Text

/-
  The lines of a text, split at every newline.  A text that
  ends with a newline has an empty last line.
-/
def lines : Text → List Text
  | [] => [[]]
  | c :: rest =>
      if c = '\n' then
        [] :: lines rest
      else
        match lines rest with
        | [] => [[c]]
        | line :: more => (c :: line) :: more

/- The text with the given lines, joined by newlines. -/
def ofLines
    (ls : List Text) : Text :=
  List.intercalate ['\n'] ls

theorem lines_ne_nil
    (t : Text) :
    lines t ≠ [] := by
  cases t with
  | nil => simp [lines]
  | cons c rest =>
      unfold lines
      split
      · simp
      · split <;> simp

theorem ofLines_cons
    (line next : Text)
    (more : List Text) :
    ofLines (line :: next :: more) =
      line ++ '\n' :: ofLines (next :: more) := by
  simp [ofLines, List.intercalate, List.intersperse]

/- Splitting into lines loses nothing. -/
theorem ofLines_lines
    (t : Text) :
    ofLines (lines t) = t := by
  induction t with
  | nil => rfl
  | cons c rest ih =>
      unfold lines
      cases hLines : lines rest with
      | nil => exact absurd hLines (lines_ne_nil rest)
      | cons line more =>
          rw [hLines] at ih
          by_cases hc : c = '\n'
          · rw [if_pos hc, ofLines_cons, ih, hc]
            rfl
          · rw [if_neg hc]
            cases more with
            | nil =>
                simpa [ofLines, List.intercalate] using ih
            | cons next more =>
                rw [ofLines_cons] at ih ⊢
                simp [← ih]

end Text

end Whittle

------------------------------------------------------------
-- Searching
------------------------------------------------------------

namespace Whittle

variable {α : Type} [BEq α]

/- The first list stands somewhere in the second one. -/
def isWithin
    (needle : List α) : List α → Bool
  | [] => needle.isEmpty
  | x :: rest =>
      needle.isPrefixOf (x :: rest) ||
        isWithin needle rest

/-
  What stands before and after the first place of `needle`,
  if there is one.
-/
def splitAtFirst?
    (needle : List α) : List α → Option (List α × List α)
  | [] => if needle.isEmpty then some ([], []) else none
  | x :: rest =>
      if needle.isPrefixOf (x :: rest) then
        some ([], (x :: rest).drop needle.length)
      else
        (splitAtFirst? needle rest).map
          fun (before, after) => (x :: before, after)

/- Split at every element that satisfies the test. -/
def splitWhere
    (isCut : α → Bool) : List α → List (List α)
  | [] => [[]]
  | x :: rest =>
      if isCut x then
        [] :: splitWhere isCut rest
      else
        match splitWhere isCut rest with
        | [] => [[x]]
        | piece :: more => (x :: piece) :: more

/- Drop elements that satisfy the test from both ends. -/
def trimWhere
    (isEdge : α → Bool)
    (xs : List α) : List α :=
  ((xs.dropWhile isEdge).reverse.dropWhile isEdge).reverse

end Whittle

------------------------------------------------------------
-- Slices
------------------------------------------------------------

namespace Whittle

/-
  A list from an index on.  A negative index counts from the
  end.
-/
def sliceFrom
    {α : Type}
    (start : Int)
    (xs : List α) : List α :=
  if start < 0 then
    xs.drop (xs.length - (-start).toNat)
  else
    xs.drop start.toNat

/-
  A list up to an index.  A negative index counts from the
  end.
-/
def sliceUpTo
    {α : Type}
    (stop : Int)
    (xs : List α) : List α :=
  if stop < 0 then
    xs.take (xs.length - (-stop).toNat)
  else
    xs.take stop.toNat

end Whittle

------------------------------------------------------------
-- Sums And Order
------------------------------------------------------------

namespace Whittle

/- The sum of some numbers. -/
def total : List Nat → Nat
  | [] => 0
  | n :: rest => n + total rest

namespace Text

/-
  The order of texts: the first characters that differ decide
  by their numbers, and a text comes after its beginnings.
-/
def isAtMost : Text → Text → Bool
  | [], _ => true
  | _ :: _, [] => false
  | c :: s, d :: t =>
      c.toNat < d.toNat || (c.toNat = d.toNat && isAtMost s t)

end Text

end Whittle
