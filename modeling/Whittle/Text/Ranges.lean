/-
  Sets of characters given as ranges of code points.

  Key definitions include:
    * `CodeRange`
    * `CodeRange.holds`
    * `inRanges`
-/

------------------------------------------------------------
-- Ranges Of Code Points
------------------------------------------------------------

namespace Whittle

/- A range of code points, both ends included. -/
abbrev CodeRange :=
  Nat × Nat

namespace CodeRange

/- The range holds a code point. -/
def holds
    (r : CodeRange)
    (n : Nat) : Bool :=
  r.1 ≤ n && n ≤ r.2

end CodeRange

/- Some range of the list holds the character. -/
def inRanges
    (ranges : List CodeRange)
    (c : Char) : Bool :=
  ranges.any fun r => r.holds c.toNat

/- Membership in a list of ranges is membership in one of them. -/
theorem inRanges_iff
    (ranges : List CodeRange)
    (c : Char) :
    inRanges ranges c = true ↔
      ∃ r ∈ ranges, r.1 ≤ c.toNat ∧ c.toNat ≤ r.2 := by
  simp [inRanges, CodeRange.holds]

end Whittle
