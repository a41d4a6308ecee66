import Whittle.FrontEnd.Python
import Whittle.Proofs.Edit.GapAgain

/-
  Trimming the gaps of a tree twice.

  Key definitions include:
    * `Tree.LeadsTo`
    * `Tree.IsSettled`

  Main statements:
    * `Tree.Trims.isSettled_of_gaps`
    * `Tree.Trims.again_iff`
    * `Tree.gapRegions_again_iff`

  Both rounds visit the nodes in the same order.  They agree
  on whether a gap right before has been trimmed, except for
  the first descendants of a node whose gap has ended on the
  node's own line: the second round does not look at that
  gap, so it looks at the gaps of these descendants, which
  the first one has passed over.
-/

------------------------------------------------------------
-- Gaps That Are Passed Over
------------------------------------------------------------

namespace Whittle

namespace Tree

/-
  The first child of a node, and that of a first descendant
  if no gap on the way may be trimmed.
-/
inductive LeadsTo
    (t : Tree)
    (ls : List Text)
    (validate : Bool)
    (removable : Text → Bool) : Nat → Nat → Nat → Prop
| first {i c : Nat} {cs : List Nat} :
    t.children i = c :: cs →
      LeadsTo t ls validate removable i i c
| down {i c j d : Nat} {cs : List Nat} :
    t.children i = c :: cs →
      (t.foundBefore ls validate removable c (t.beginOf i)
        false).trimmed = false →
        LeadsTo t ls validate removable c j d →
          LeadsTo t ls validate removable i j d

/-
  What may be trimmed before the first descendants of a node
  is among the regions.
-/
def IsSettled
    (t : Tree)
    (ls : List Text)
    (validate : Bool)
    (removable : Text → Bool)
    (rs : List Region)
    (i : Nat) : Prop :=
  ∀ j c, t.LeadsTo ls validate removable i j c →
    (t.foundBefore ls validate removable c (t.beginOf j)
      false).regions ⊆ rs

/- The same, with the gap before the node itself. -/
def IsSettledFrom
    (t : Tree)
    (ls : List Text)
    (validate : Bool)
    (removable : Text → Bool)
    (rs : List Region)
    (p : Position)
    (i : Nat) : Prop :=
  (t.foundBefore ls validate removable i p false).regions ⊆ rs ∧
    ((t.foundBefore ls validate removable i p false).trimmed =
        false →
      t.IsSettled ls validate removable rs i)

/- Nodes on the last lines of regions are settled. -/
def AreSettled
    (t : Tree)
    (ls : List Text)
    (validate : Bool)
    (removable : Text → Bool)
    (rs : List Region)
    (i : Nat) : Prop :=
  ∀ j, t.Reaches i j →
    (∃ r ∈ rs, r.endLine = (t.beginOf j).line) →
      t.IsSettled ls validate removable rs j

variable {t : Tree} {ls : List Text} {validate : Bool}
variable {removable : Text → Bool} {rs : List Region}

/- A node is settled if its first child is. -/
theorem isSettled_iff
    {i : Nat} :
    t.IsSettled ls validate removable rs i ↔
      ∀ c ∈ (t.children i).head?,
        t.IsSettledFrom ls validate removable rs (t.beginOf i) c := by
  constructor
  · intro hSettled c hc
    obtain ⟨cs, hChildren⟩ := List.head?_eq_some_iff.mp hc
    constructor
    · exact hSettled i c (.first hChildren)
    · intro hKept j d hLeads
      exact hSettled j d (.down hChildren hKept hLeads)
  · intro hFirst j c hLeads
    cases hLeads with
    | first hChildren =>
        exact (hFirst c (by rw [hChildren]; rfl)).1
    | down hChildren hKept hMore =>
        exact (hFirst _ (by rw [hChildren]; rfl)).2 hKept j c hMore

/- All nodes of a subtree are settled if they are one by one. -/
theorem areSettled_iff
    {i : Nat} :
    t.AreSettled ls validate removable rs i ↔
      ((∃ r ∈ rs, r.endLine = (t.beginOf i).line) →
        t.IsSettled ls validate removable rs i) ∧
      ∀ c ∈ t.children i,
        t.AreSettled ls validate removable rs c := by
  constructor
  · intro hAll
    exact ⟨hAll i .refl,
      fun c hc j hj => hAll j (.head hc hj)⟩
  · rintro ⟨hNode, hChildren⟩ j hj hEnds
    rcases Relation.ReflTransGen.cases_head hj with
      rfl | ⟨c, hc, hBelow⟩
    · exact hNode hEnds
    · exact hChildren c hc j hBelow hEnds

end Tree

end Whittle

------------------------------------------------------------
-- Nodes That Are Settled
------------------------------------------------------------

namespace Whittle

namespace Tree

variable {t : Tree} {ls : List Text} {validate : Bool}
variable {removable : Text → Bool} {rs : List Region}

/-
  What is found before siblings is found at the first of them
  and at the others.
-/
theorem childGaps_cons_eq_ok
    {look : Nat → Position → Bool → Except GapError (List Region)}
    {endOf : Nat → Position}
    {c : Nat}
    {cs : List Nat}
    {p : Position}
    {fresh : Bool}
    {found : List Region}
    (hFound : childGaps look endOf (c :: cs) p fresh = .ok found) :
    ∃ mine others,
      look c p fresh = .ok mine ∧
        childGaps look endOf cs (p.greatest (endOf c)) false =
          .ok others ∧
        found = mine ++ others := by
  rw [childGaps] at hFound
  cases hMine : look c p fresh with
  | error e =>
      rw [hMine] at hFound
      cases hFound
  | ok mine =>
      rw [hMine] at hFound
      dsimp only at hFound
      cases hOthers :
          childGaps look endOf cs (p.greatest (endOf c)) false with
      | error e =>
          rw [hOthers] at hFound
          cases hFound
      | ok others =>
          rw [hOthers] at hFound
          cases hFound
          exact ⟨mine, others, rfl, rfl, rfl⟩

/- What is found in a subtree is found at its root or below it. -/
theorem LiesOver.gapsFrom_succ_eq_ok
    (hLies : t.LiesOver ls)
    {fuel i : Nat}
    {p : Position}
    {fresh : Bool}
    {found : List Region}
    (hi : t.Reaches 0 i)
    (hStart : -1 ≤ p.line)
    (hLe : p.atMost (t.beginOf i) = true)
    (hFound :
      t.gapsFrom ls validate removable (fuel + 1) i p fresh =
        .ok found) :
    ∃ kids,
      childGaps (t.gapsFrom ls validate removable fuel) t.endOf
          (t.children i) (t.beginOf i)
          ((t.foundBefore ls validate removable i p fresh).trimmed ||
            fresh) = .ok kids ∧
        found =
          (t.foundBefore ls validate removable i p fresh).regions ++
            kids := by
  rw [hLies.gapsFrom_succ fuel fresh hi hStart hLe] at hFound
  cases hKids :
      childGaps (t.gapsFrom ls validate removable fuel) t.endOf
        (t.children i) (t.beginOf i)
        ((t.foundBefore ls validate removable i p fresh).trimmed ||
          fresh) with
  | error e =>
      rw [hKids] at hFound
      cases hFound
  | ok kids =>
      rw [hKids] at hFound
      cases hFound
      exact ⟨kids, rfl, rfl⟩

/-
  If the gap before the first child of a node was looked at,
  the node is settled.
-/
theorem LiesOver.isSettled_of_gaps
    (hLies : t.LiesOver ls)
    {fuel i : Nat}
    {kids : List Region}
    (hi : t.Reaches 0 i)
    (hFuel : t.size ≤ i + (fuel + 1))
    (hKids :
      childGaps (t.gapsFrom ls validate removable fuel) t.endOf
        (t.children i) (t.beginOf i) false = .ok kids)
    (hSub : kids ⊆ rs) :
    t.IsSettled ls validate removable rs i := by
  induction fuel generalizing i kids with
  | zero =>
      rw [isSettled_iff]
      intro c hc
      have hAbove := hLies.isTree.above (List.mem_of_mem_head? hc)
      omega
  | succ fuel ih =>
      rw [isSettled_iff]
      intro c hc
      obtain ⟨cs, hChildren⟩ := List.head?_eq_some_iff.mp hc
      have hChild : c ∈ t.children i := List.mem_of_mem_head? hc
      have hAbove := hLies.isTree.above hChild
      have hStart := (hLies.begin_isIn hi).1.1
      rw [hChildren] at hKids
      rcases childGaps_cons_eq_ok hKids with
        ⟨mine, others, hMine, -, rfl⟩
      rcases hLies.gapsFrom_succ_eq_ok (hi.tail hChild) (by omega)
          (hLies.inside hi (.single hChild)).1 hMine with
        ⟨below, hBelow, rfl⟩
      constructor
      · intro r hr
        exact hSub (List.mem_append_left _
          (List.mem_append_left _ hr))
      · intro hKept
        rw [hKept] at hBelow
        apply ih (hi.tail hChild) (by omega) hBelow
        intro r hr
        exact hSub (List.mem_append_left _
          (List.mem_append_right _ hr))

end Tree

/- Of all regions, those between two places. -/
structure Region.AreBetween
    (rs : List Region)
    (p q : Position)
    (mine : List Region) : Prop where
  subset : mine ⊆ rs
  apart : ∀ r ∈ rs,
    r.stop.atMost p = true ∨ r ∈ mine ∨ q.line < r.beginLine

namespace Region.AreBetween

variable {rs mine more : List Region} {p q m : Position}
variable (hAll : Region.AreBetween rs p q (mine ++ more))
include hAll

/- The regions up to a place between the two. -/
theorem upTo
    (hMore : ∀ r ∈ more, m.line < r.beginLine)
    (hLe : m.atMost q = true) :
    Region.AreBetween rs p m mine := by
  rw [Position.atMost_iff] at hLe
  constructor
  · intro r hr
    exact hAll.subset (List.mem_append_left _ hr)
  · intro r hr
    rcases hAll.apart r hr with hBefore | hIn | hAfter
    · exact .inl hBefore
    · rcases List.mem_append.mp hIn with hIn | hIn
      · exact .inr (.inl hIn)
      · exact .inr (.inr (hMore r hIn))
    · exact .inr (.inr (by omega))

/- The regions behind a place between the two. -/
theorem behind
    (hMine : ∀ r ∈ mine, r.stop.atMost m = true)
    (hLe : p.atMost m = true) :
    Region.AreBetween rs m q more := by
  constructor
  · intro r hr
    exact hAll.subset (List.mem_append_right _ hr)
  · intro r hr
    rcases hAll.apart r hr with hBefore | hIn | hAfter
    · exact .inl (Position.atMost_trans hBefore hLe)
    · rcases List.mem_append.mp hIn with hIn | hIn
      · exact .inl (hMine r hIn)
      · exact .inr (.inl hIn)
    · exact .inr (.inr hAfter)

end Region.AreBetween

end Whittle

------------------------------------------------------------
-- Looking Again
------------------------------------------------------------

namespace Whittle

namespace Tree

theorem looksAt_of_trimmed
    {t : Tree}
    {ls : List Text}
    {validate fresh : Bool}
    {removable : Text → Bool}
    {i : Nat}
    {p : Position}
    (hTrimmed :
      (t.foundBefore ls validate removable i p fresh).trimmed =
        true) :
    t.looksAt validate i p fresh = true := by
  by_contra hNot
  rw [foundBefore, if_neg hNot] at hTrimmed
  cases hTrimmed

/- What is found with a region has been removed. -/
theorem foundBefore_of_region
    {t : Tree}
    {ls : List Text}
    {validate fresh : Bool}
    {removable : Text → Bool}
    {i : Nat}
    {p : Position}
    (hSome :
      (t.foundBefore ls validate removable i p fresh).regions ≠
        []) :
    t.looksAt validate i p fresh = true ∧
      isRemovedGap ls removable p (t.beginOf i) = true ∧
      t.foundBefore ls validate removable i p fresh =
        ⟨[gapRegion ls p (t.beginOf i)], gapStop ls (t.beginOf i),
          true⟩ := by
  by_cases hLooks : t.looksAt validate i p fresh = true
  · refine ⟨hLooks, ?_⟩
    rw [foundBefore, if_pos hLooks, gapFound] at hSome ⊢
    by_cases hRemoved :
        isRemovedGap ls removable p (t.beginOf i) = true
    · refine ⟨hRemoved, ?_⟩
      rw [if_pos hRemoved] at hSome ⊢
      dsimp only at hSome ⊢
      split
      · rfl
      · rename_i hEmpty
        rw [if_neg hEmpty] at hSome
        exact absurd rfl hSome
    · rw [if_neg hRemoved] at hSome
      exact absurd rfl hSome
  · rw [foundBefore, if_neg hLooks] at hSome
    exact absurd rfl hSome

theorem regions_of_not_trimmed
    {t : Tree}
    {ls : List Text}
    {validate fresh : Bool}
    {removable : Text → Bool}
    {i : Nat}
    {p : Position}
    (hKept :
      (t.foundBefore ls validate removable i p fresh).trimmed =
        false) :
    (t.foundBefore ls validate removable i p fresh).regions =
      [] := by
  by_cases hLooks : t.looksAt validate i p fresh = true
  · rw [foundBefore, if_pos hLooks, gapFound] at hKept ⊢
    by_cases hRemoved : isRemovedGap ls removable p (t.beginOf i) = true
    · rw [if_pos hRemoved] at hKept
      cases hKept
    · rw [if_neg hRemoved]
  · rw [foundBefore, if_neg hLooks]

namespace Trims

variable {t : Tree} {ls : List Text} {validate : Bool}
variable {removable : Text → Bool} {rs : List Region}
variable {p : Position} {i : Nat}

variable (hTrims : t.Trims ls removable rs)
include hTrims

/- The begin of a node may have a gap behind it. -/
theorem begin_isMovable
    (hi : t.Reaches 0 i) :
    (t.beginOf i).IsMovable ls rs :=
  .inr ⟨hTrims.lies.begin_isIn hi, hTrims.begin_isClear hi⟩

/- The end of a node may have a gap behind it. -/
theorem end_isMovable
    (hi : t.Reaches 0 i) :
    (t.endOf i).IsMovable ls rs :=
  .inr ⟨hTrims.ends i hi, hTrims.end_isClear hi⟩

theorem lines_ne_nil :
    ls ≠ [] := by
  have hLine := (hTrims.lies.begin_isIn .refl).1
  exact List.ne_nil_of_length_pos (by omega)

/- Where no gap was trimmed, the distance in lines stays. -/
theorem looks_moved
    (hi : t.Reaches 0 i)
    (hp : p.IsMovable ls rs)
    (hLe : p.atMost (t.beginOf i) = true)
    (hApart : ∀ r ∈ rs,
      r.stop.atMost p = true ∨ (t.beginOf i).line < r.beginLine) :
    (p.moved rs).line < ((t.beginOf i).moved rs).line - 1 ↔
      p.line < (t.beginOf i).line - 1 := by
  have hIn := hTrims.lies.begin_isIn hi
  have hLine := hIn.1
  have hGaps := hTrims.gaps.areGaps
  have hFirst := hp.keptBefore_next hGaps
  have hUpTo := Position.atMost_iff.mp hLe
  obtain ⟨c, hCut, -⟩ :=
    (hTrims.begin_isClear hi).exists_cutIn hIn hGaps
  by_cases hBelow : p.line + 1 < (t.beginOf i).line
  · rw [moved_eq_of_apart hp hGaps hIn hBelow hApart]
    dsimp only
    omega
  · have hMoved :
        ((t.beginOf i).moved rs).line ≤ (p.moved rs).line + 1 := by
      rw [Position.moved_eq hLine.1 hCut]
      dsimp only
      by_cases hNext : (t.beginOf i).line = p.line + 1
      · rw [hNext]
        omega
      · have hSame : (p.line + 1).toNat =
            (t.beginOf i).line.toNat + 1 := by
          omega
        rw [hSame, Text.keptBefore, hCut] at hFirst
        simp at hFirst
        omega
    omega

/- Where no gap was trimmed, the same is found again. -/
theorem foundBefore_moved
    (validate fresh : Bool)
    (hi : t.Reaches 0 i)
    (hp : p.IsMovable ls rs)
    (hLe : p.atMost (t.beginOf i) = true)
    (hApart : ∀ r ∈ rs,
      r.stop.atMost p = true ∨ (t.beginOf i).line < r.beginLine) :
    ((t.carried ls rs).foundBefore
        (Text.keepRows (Region.cutIn rs) ls) validate removable i
        (p.moved rs) fresh).trimmed =
      (t.foundBefore ls validate removable i p fresh).trimmed ∧
    (((t.carried ls rs).foundBefore
        (Text.keepRows (Region.cutIn rs) ls) validate removable i
        (p.moved rs) fresh).regions = [] ↔
      (t.foundBefore ls validate removable i p fresh).regions =
        []) := by
  have hLooks :
      (t.carried ls rs).looksAt validate i (p.moved rs) fresh =
        t.looksAt validate i p fresh := by
    unfold looksAt
    rw [hTrims.beginOf_carried hi, hTrims.isProper_carried hi,
      decide_eq_decide.mpr (hTrims.looks_moved hi hp hLe hApart)]
  unfold foundBefore
  rw [hLooks, hTrims.beginOf_carried hi]
  split
  · rename_i hLook
    exact gapFound_moved hp hTrims.gaps.areGaps
      (hTrims.lies.begin_isIn hi) (lines_of_looksAt hLook) hApart
      (hTrims.begin_isClear hi)
  · exact ⟨rfl, Iff.rfl⟩

/- What is found between regions is none of them. -/
theorem regions_subset_iff
    (validate : Bool)
    (hi : t.Reaches 0 i)
    (hp : p.IsMovable ls rs)
    (hApart : ∀ r ∈ rs,
      r.stop.atMost p = true ∨ (t.beginOf i).line < r.beginLine) :
    (t.foundBefore ls validate removable i p false).regions ⊆ rs ↔
      (t.foundBefore ls validate removable i p false).regions =
        [] := by
  constructor
  · intro hSub
    rw [List.eq_nil_iff_forall_not_mem]
    intro r hr
    have hStart := (hp.line_bounds hTrims.lines_ne_nil).1
    have hFound :=
      hTrims.lies.areGaps_foundBefore validate removable false hi
        hStart
    have hAfter := hFound.after r hr
    have hUpTo := Position.atMost_iff.mp (hFound.upTo r hr)
    have hLines := (hFound.areGaps r hr).lines
    simp only [Region.stop] at hUpTo
    rcases hApart r (hSub hr) with hBefore | hBelow
    · rw [Position.atMost_iff] at hBefore
      simp only [Region.stop] at hBefore
      omega
    · omega
  · intro hNone
    rw [hNone]
    exact List.nil_subset rs

end Trims

/-
  How both rounds agree on whether a gap right before has
  been trimmed: they say the same, and no gap has ended on
  the line that is reached; or only the first one says so.
-/
def Agree
    (rs : List Region)
    (p : Position)
    (fresh fresh' : Bool) : Prop :=
  (fresh' = fresh ∧
      (fresh = true → ∀ r ∈ rs, r.endLine ≠ p.line)) ∨
    (fresh = true ∧ fresh' = false)

/- What both rounds make of the gap before a node. -/
def AgreesBefore
    (t : Tree)
    (ls : List Text)
    (validate : Bool)
    (removable : Text → Bool)
    (rs : List Region)
    (i : Nat)
    (p : Position)
    (fresh fresh' : Bool) : Prop :=
  let found := t.foundBefore ls validate removable i p fresh
  let found' :=
    (t.carried ls rs).foundBefore
      (Text.keepRows (Region.cutIn rs) ls) validate removable i
      (p.moved rs) fresh'
  let later := found.trimmed || fresh
  let later' := found'.trimmed || fresh'
  Agree rs (t.beginOf i) later later' ∧
    ((later = false → t.IsSettled ls validate removable rs i) →
      ((found'.regions = [] ∧
          ((later && !later') = true →
            t.IsSettled ls validate removable rs i)) ↔
        (((fresh && !fresh') = true →
            t.IsSettledFrom ls validate removable rs p i) ∧
          ((∃ r ∈ rs, r.endLine = (t.beginOf i).line) →
            t.IsSettled ls validate removable rs i))))

namespace Trims

variable {t : Tree} {ls : List Text} {validate : Bool}
variable {removable : Text → Bool} {rs : List Region}
variable {p : Position} {i : Nat} {fresh fresh' : Bool}

variable (hTrims : t.Trims ls removable rs)
include hTrims

/- No region ends on the line of a node below a gap. -/
theorem endLine_ne
    (hp : p.atMost (t.beginOf i) = true)
    (hApart : ∀ r ∈ rs,
      r.stop.atMost p = true ∨ (t.beginOf i).line < r.beginLine)
    (hAbove : p.line = (t.beginOf i).line →
      ∀ r ∈ rs, r.endLine ≠ p.line) :
    ∀ r ∈ rs, r.endLine ≠ (t.beginOf i).line := by
  intro r hr hEnd
  have hLe := Position.atMost_iff.mp hp
  have hLines := (hTrims.gaps.areGaps r hr).lines
  rcases hApart r hr with hBefore | hBelow
  · rw [Position.atMost_iff] at hBefore
    simp only [Region.stop] at hBefore
    exact hAbove (by omega) r hr (by omega)
  · omega

/- Both rounds agree if they look with the same flag. -/
theorem agreesBefore_of_eq
    (hi : t.Reaches 0 i)
    (hp : p.IsMovable ls rs)
    (hLe : p.atMost (t.beginOf i) = true)
    (hNone :
      (t.foundBefore ls validate removable i p fresh).regions = [])
    (hApart : ∀ r ∈ rs,
      r.stop.atMost p = true ∨ (t.beginOf i).line < r.beginLine)
    (hEnds : fresh = true → ∀ r ∈ rs, r.endLine ≠ p.line) :
    t.AgreesBefore ls validate removable rs i p fresh fresh := by
  obtain ⟨hTrimmed, hRegions⟩ :=
    hTrims.foundBefore_moved validate fresh hi hp hLe hApart
  have hLater :
      ((t.foundBefore ls validate removable i p fresh).trimmed ||
        fresh) = true →
        ∀ r ∈ rs, r.endLine ≠ (t.beginOf i).line := by
    intro hSome
    apply hTrims.endLine_ne hLe hApart
    intro hSame
    cases fresh with
    | true => exact hEnds rfl
    | false =>
        rw [Bool.or_false] at hSome
        have hLines := lines_of_looksAt (looksAt_of_trimmed hSome)
        omega
  unfold AgreesBefore
  dsimp only
  rw [hTrimmed]
  refine ⟨.inl ⟨rfl, hLater⟩, ?_⟩
  intro hSettled
  simp only [Bool.and_not_self, Bool.false_eq_true, false_implies,
    and_true, true_and, hRegions, hNone]
  constructor
  · intro _ hEnd
    apply hSettled
    rw [Bool.eq_false_iff]
    rintro hSome
    obtain ⟨r, hr, hLine⟩ := hEnd
    exact hLater hSome r hr hLine
  · intro _
    trivial

/-
  A gap that only the second round looks at is found again as
  the first one would have found it.
-/
theorem agreesBefore_of_ne
    (hi : t.Reaches 0 i)
    (hp : p.IsMovable ls rs)
    (hLe : p.atMost (t.beginOf i) = true)
    (hApart : ∀ r ∈ rs,
      r.stop.atMost p = true ∨ (t.beginOf i).line < r.beginLine) :
    t.AgreesBefore ls validate removable rs i p true false := by
  obtain ⟨hTrimmed, hRegions⟩ :=
    hTrims.foundBefore_moved validate false hi hp hLe hApart
  have hSubset :=
    hTrims.regions_subset_iff validate hi hp hApart
  unfold AgreesBefore
  dsimp only
  rw [hTrimmed, hRegions, Bool.or_true, Bool.or_false]
  unfold IsSettledFrom
  rw [hSubset]
  cases hFound :
      (t.foundBefore ls validate removable i p false).trimmed with
  | true =>
      have hLater : ∀ r ∈ rs, r.endLine ≠ (t.beginOf i).line := by
        apply hTrims.endLine_ne hLe hApart
        intro hSame
        have hLines := lines_of_looksAt (looksAt_of_trimmed hFound)
        omega
      refine ⟨.inl ⟨rfl, fun _ => hLater⟩, ?_⟩
      intro _
      simp only [Bool.not_true, Bool.and_false, Bool.false_eq_true,
        Bool.true_eq_false, false_implies, and_true, Bool.not_false,
        Bool.and_true, forall_const]
      constructor
      · intro hNone
        refine ⟨hNone, ?_⟩
        rintro ⟨r, hr, hLine⟩
        exact absurd hLine (hLater r hr)
      · intro hBoth
        exact hBoth.1
  | false =>
      have hNone := regions_of_not_trimmed hFound
      refine ⟨.inr ⟨rfl, rfl⟩, ?_⟩
      intro _
      simp only [Bool.not_false, Bool.and_true, forall_const, hNone,
        true_and]
      constructor
      · intro hSettled
        exact ⟨hSettled, fun _ => hSettled⟩
      · intro hBoth
        exact hBoth.1

/-
  A gap that has ended above its node is trimmed again, as far
  as it goes.
-/
theorem agreesBefore_of_above
    (hi : t.Reaches 0 i)
    (hp : p.IsMovable ls rs)
    (hEmpty : removable [] = true)
    (hLooks : t.looksAt validate i p false = true)
    (hFound :
      t.foundBefore ls validate removable i p false =
        ⟨[gapRegion ls p (t.beginOf i)], gapStop ls (t.beginOf i),
          true⟩)
    (hRemoved : isRemovedGap ls removable p (t.beginOf i) = true)
    (hBetween :
      Region.AreBetween rs p (t.beginOf i)
        [gapRegion ls p (t.beginOf i)])
    (hAbove :
      (gapStop ls (t.beginOf i)).line < (t.beginOf i).line) :
    t.AgreesBefore ls validate removable rs i p false false := by
  have hGaps := hTrims.gaps.areGaps
  have hApart : ∀ r ∈ rs,
      r.stop.atMost p = true ∨ r = gapRegion ls p (t.beginOf i) ∨
        (t.beginOf i).line < r.beginLine := by
    intro r hr
    simpa using hBetween.apart r hr
  have hBelow := lines_of_looksAt hLooks
  have hProper : (!validate || (t.span i).isProper) = true :=
    (Bool.and_eq_true_iff.mp hLooks).2
  obtain ⟨hMoved, hAgain⟩ :=
    gapFound_trimmed hp hGaps hTrims.gaps.ordered
      (hTrims.lies.begin_isIn hi) hBelow (hBetween.subset (by simp))
      hAbove hApart (hTrims.begin_isClear hi) hEmpty hRemoved
  have hLater : ∀ r ∈ rs, r.endLine ≠ (t.beginOf i).line := by
    intro r hr
    rcases hApart r hr with hBefore | rfl | hAfter
    · rw [Position.atMost_iff] at hBefore
      simp only [Region.stop] at hBefore
      omega
    · simp only [gapRegion]
      omega
    · have hLines := (hGaps r hr).lines
      omega
  have hLooks' :
      (t.carried ls rs).looksAt validate i (p.moved rs) false =
        true := by
    unfold looksAt
    rw [hTrims.beginOf_carried hi, hTrims.isProper_carried hi,
      hMoved, hProper]
    simp
    omega
  unfold AgreesBefore
  dsimp only
  rw [hFound]
  unfold foundBefore
  rw [if_pos hLooks', hTrims.beginOf_carried hi, hAgain]
  refine ⟨.inl ⟨rfl, fun _ => hLater⟩, ?_⟩
  intro _
  constructor
  · intro _
    constructor
    · intro hFalse
      exact absurd hFalse Bool.false_ne_true
    · rintro ⟨r, hr, hLine⟩
      exact absurd hLine (hLater r hr)
  · intro _
    exact ⟨rfl, fun hFalse => absurd hFalse Bool.false_ne_true⟩

/-
  A gap that has ended on the line of its node is not looked
  at again.
-/
theorem agreesBefore_of_within
    (hi : t.Reaches 0 i)
    (hp : p.IsMovable ls rs)
    (hLooks : t.looksAt validate i p false = true)
    (hFound :
      t.foundBefore ls validate removable i p false =
        ⟨[gapRegion ls p (t.beginOf i)], gapStop ls (t.beginOf i),
          true⟩)
    (hTrimmed : gapRegion ls p (t.beginOf i) ∈ rs)
    (hWithin :
      (gapStop ls (t.beginOf i)).line = (t.beginOf i).line) :
    t.AgreesBefore ls validate removable rs i p false false := by
  have hMoved :=
    line_moved_of_within hp hTrims.gaps.areGaps
      (hTrims.lies.begin_isIn hi) (lines_of_looksAt hLooks) hTrimmed
      (hTrims.begin_isClear hi) hWithin
  have hLooks' :
      ¬ (t.carried ls rs).looksAt validate i (p.moved rs) false =
        true := by
    unfold looksAt
    rw [hTrims.beginOf_carried hi, hMoved]
    simp
  unfold AgreesBefore
  dsimp only
  rw [hFound]
  unfold foundBefore
  rw [if_neg hLooks']
  refine ⟨.inr ⟨rfl, rfl⟩, ?_⟩
  intro _
  constructor
  · intro hBoth
    exact ⟨fun hFalse => absurd hFalse Bool.false_ne_true,
      fun _ => hBoth.2 rfl⟩
  · intro hBoth
    exact ⟨rfl, fun _ => hBoth.2 ⟨_, hTrimmed, hWithin⟩⟩

/- Both rounds agree on every gap that they look at. -/
theorem agreesBefore
    (validate : Bool)
    (hi : t.Reaches 0 i)
    (hp : p.IsMovable ls rs)
    (hLe : p.atMost (t.beginOf i) = true)
    (hEmpty : removable [] = true)
    (hAgree : Agree rs p fresh fresh')
    (hBetween :
      Region.AreBetween rs p (t.beginOf i)
        (t.foundBefore ls validate removable i p fresh).regions) :
    t.AgreesBefore ls validate removable rs i p fresh fresh' := by
  by_cases hNone :
      (t.foundBefore ls validate removable i p fresh).regions = []
  · have hApart : ∀ r ∈ rs,
        r.stop.atMost p = true ∨
          (t.beginOf i).line < r.beginLine := by
      intro r hr
      simpa [hNone] using hBetween.apart r hr
    rcases hAgree with ⟨rfl, hEnds⟩ | ⟨rfl, rfl⟩
    · exact hTrims.agreesBefore_of_eq hi hp hLe hNone hApart hEnds
    · exact hTrims.agreesBefore_of_ne hi hp hLe hApart
  · obtain ⟨hLooks, hRemoved, hFound⟩ := foundBefore_of_region hNone
    have hOld : fresh = false := by
      simp only [looksAt, Bool.and_eq_true,
        Bool.not_eq_true'] at hLooks
      exact hLooks.1.1
    have hNew : fresh' = false := by
      rcases hAgree with ⟨hEq, -⟩ | ⟨hFresh, -⟩
      · exact hEq.trans hOld
      · exact absurd (hOld.symm.trans hFresh) Bool.false_ne_true
    subst hOld hNew
    rw [hFound] at hBetween
    have hStop :=
      Position.atMost_iff.mp
        (gapStop_bounds (hTrims.lies.begin_isIn hi)).2
    by_cases hAbove :
        (gapStop ls (t.beginOf i)).line < (t.beginOf i).line
    · exact hTrims.agreesBefore_of_above hi hp hEmpty hLooks hFound
        hRemoved hBetween hAbove
    · exact hTrims.agreesBefore_of_within hi hp hLooks hFound
        (hBetween.subset (by simp)) (by omega)

end Trims

end Tree

end Whittle

------------------------------------------------------------
-- Trimming Again
------------------------------------------------------------

namespace Whittle

namespace Tree

namespace Trims

variable {t : Tree} {ls : List Text} {validate : Bool}
variable {removable : Text → Bool} {rs : List Region}

variable (hTrims : t.Trims ls removable rs)
include hTrims

/- A movable place stays at most as far as a clear one. -/
theorem moved_atMost
    {p q : Position}
    (hp : p.IsMovable ls rs)
    (hIn : q.IsIn ls)
    (hClear : q.IsClear rs)
    (hLe : p.atMost q = true) :
    (p.moved rs).atMost (q.moved rs) = true := by
  rcases hp with rfl | ⟨hIn', hClear'⟩
  · have hLine := (hClear.moved_isIn hIn hTrims.gaps.areGaps).1.1
    rw [Position.atMost_iff]
    left
    exact Int.lt_of_lt_of_le (show (-1 : Int) < 0 by decide) hLine
  · rw [hClear'.moved_atMost hClear hIn' hIn hTrims.gaps.areGaps]
    exact hLe

/- What the second round finds before siblings. -/
theorem childGaps_again_iff
    {fuel i : Nat}
    (hi : t.Reaches 0 i)
    (hLook : ∀ c ∈ t.children i,
      ∀ {p : Position} {fresh fresh' : Bool}
        {mine again : List Region},
        p.IsMovable ls rs → p.atMost (t.beginOf c) = true →
          Agree rs p fresh fresh' →
          Region.AreBetween rs p (t.endOf c) mine →
          t.gapsFrom ls validate removable fuel c p fresh =
            .ok mine →
          (t.carried ls rs).gapsFrom
              (Text.keepRows (Region.cutIn rs) ls) validate
              removable fuel c (p.moved rs) fresh' = .ok again →
          (again = [] ↔
            ((fresh && !fresh') = true →
              t.IsSettledFrom ls validate removable rs p c) ∧
            t.AreSettled ls validate removable rs c))
    {cs : List Nat}
    (hChildren : ∀ c ∈ cs, c ∈ t.children i)
    (hOrder : cs.Pairwise fun c d =>
      (t.endOf c).before (t.beginOf d) = true)
    {p : Position}
    {fresh fresh' : Bool}
    {kids again : List Region}
    (hp : p.IsMovable ls rs)
    (hFirst : ∀ c ∈ cs, p.atMost (t.beginOf c) = true)
    (hAgree : Agree rs p fresh fresh')
    (hBetween : Region.AreBetween rs p (t.endOf i) kids)
    (hKids :
      childGaps (t.gapsFrom ls validate removable fuel) t.endOf cs
        p fresh = .ok kids)
    (hAgain :
      childGaps
        ((t.carried ls rs).gapsFrom
          (Text.keepRows (Region.cutIn rs) ls) validate removable
          fuel)
        (t.carried ls rs).endOf cs (p.moved rs) fresh' =
        .ok again) :
    again = [] ↔
      ((fresh && !fresh') = true →
        ∀ c ∈ cs.head?,
          t.IsSettledFrom ls validate removable rs p c) ∧
      ∀ c ∈ cs, t.AreSettled ls validate removable rs c := by
  induction cs generalizing p fresh fresh' kids again with
  | nil =>
      cases hAgain
      simp
  | cons c rest ih =>
      obtain ⟨hLater, hOrder'⟩ := List.pairwise_cons.mp hOrder
      have hc := hChildren c (by simp)
      have hReach := hi.tail hc
      have hBegin := hFirst c (by simp)
      have hStart := (hp.line_bounds hTrims.lines_ne_nil).1
      have hEnd :=
        Position.atMost_trans hBegin (hTrims.lies.begin_atMost hReach)
      have hMoved :=
        hTrims.moved_atMost hp (hTrims.ends c hReach)
          (hTrims.end_isClear hReach) hEnd
      obtain ⟨mine, hMine, hGaps⟩ :=
        hTrims.lies.exists_gapsFrom validate removable fuel fresh
          hReach hStart hBegin
      have hNext : ∀ d ∈ rest, (t.endOf c).atMost (t.beginOf d) :=
        fun d hd => Position.atMost_of_before (hLater d hd)
      have hRest : ∀ d ∈ rest, d ∈ t.children i :=
        fun d hd => hChildren d (List.mem_cons_of_mem c hd)
      obtain ⟨more, hMore, hGaps'⟩ :=
        hTrims.lies.exists_siblingGaps validate removable fuel hi
          hRest hOrder' false
          ((hTrims.end_isMovable hReach).line_bounds
            hTrims.lines_ne_nil).1 hNext
      rw [childGaps, hMine] at hKids
      dsimp only at hKids
      rw [Position.greatest_eq hEnd, hMore] at hKids
      cases hKids
      rcases childGaps_cons_eq_ok hAgain with
        ⟨mine', more', hMine', hMore', rfl⟩
      rw [hTrims.endOf_carried hReach,
        Position.greatest_eq hMoved] at hMore'
      have hHere :=
        hLook c hc hp hBegin hAgree
          (hBetween.upTo hGaps'.after
            (hTrims.lies.inside hi (.single hc)).2)
          hMine hMine'
      have hAgree' : Agree rs (t.endOf c) false false :=
        .inl ⟨rfl, fun hFresh => absurd hFresh Bool.false_ne_true⟩
      have hThere :=
        ih hRest hOrder' (hTrims.end_isMovable hReach) hNext
          hAgree' (hBetween.behind hGaps.upTo hEnd) hMore hMore'
      rw [List.append_eq_nil_iff, hHere, hThere]
      simp [and_assoc]

/-
  The second round finds nothing in a subtree just if nothing
  was passed over in it.
-/
theorem again_iff
    (hEmpty : removable [] = true)
    {fuel i : Nat}
    {p : Position}
    {fresh fresh' : Bool}
    {mine again : List Region}
    (hi : t.Reaches 0 i)
    (hFuel : t.size ≤ i + fuel)
    (hp : p.IsMovable ls rs)
    (hLe : p.atMost (t.beginOf i) = true)
    (hAgree : Agree rs p fresh fresh')
    (hBetween : Region.AreBetween rs p (t.endOf i) mine)
    (hMine :
      t.gapsFrom ls validate removable fuel i p fresh = .ok mine)
    (hAgain :
      (t.carried ls rs).gapsFrom
        (Text.keepRows (Region.cutIn rs) ls) validate removable
        fuel i (p.moved rs) fresh' = .ok again) :
    again = [] ↔
      ((fresh && !fresh') = true →
        t.IsSettledFrom ls validate removable rs p i) ∧
      t.AreSettled ls validate removable rs i := by
  induction fuel generalizing i p fresh fresh' mine again with
  | zero =>
      have hSize := hTrims.lt_size hi
      omega
  | succ fuel ih =>
      have hLies := hTrims.lies
      have hStart := (hp.line_bounds hTrims.lines_ne_nil).1
      have hIn := hLies.begin_isIn hi
      have hClear := hTrims.begin_isClear hi
      have hFirst : ∀ c ∈ t.children i,
          (t.beginOf i).atMost (t.beginOf c) = true :=
        fun c hc => (hLies.inside hi (.single hc)).1
      have hFound :=
        hLies.areGaps_foundBefore validate removable fresh hi hStart
      obtain ⟨kids, hKids, hGaps⟩ :=
        hLies.exists_siblingGaps validate removable fuel hi
          (fun c hc => hc) (hLies.siblings hi)
          ((t.foundBefore ls validate removable i p fresh).trimmed ||
            fresh)
          (by have := hIn.1.1; omega) hFirst
      rw [hLies.gapsFrom_succ fuel fresh hi hStart hLe, hKids]
        at hMine
      cases hMine
      have hMoved := hTrims.moved_atMost hp hIn hClear hLe
      have hStart' : -1 ≤ (p.moved rs).line := by
        have hNext := hp.keptBefore_next hTrims.gaps.areGaps
        omega
      have hLe' :
          (p.moved rs).atMost ((t.carried ls rs).beginOf i) = true := by
        rw [hTrims.beginOf_carried hi]
        exact hMoved
      rcases hTrims.liesOver_carried.gapsFrom_succ_eq_ok
          (reaches_carried.mpr hi) hStart' hLe' hAgain with
        ⟨kids', hKids', rfl⟩
      rw [children_carried, hTrims.beginOf_carried hi] at hKids'
      obtain ⟨hAgree', hSettled⟩ :=
        hTrims.agreesBefore validate hi hp hLe hEmpty hAgree
          (hBetween.upTo hGaps.after (hLies.begin_atMost hi))
      have hBelow := hBetween.behind hFound.upTo hLe
      have hWalked :
          ((t.foundBefore ls validate removable i p fresh).trimmed ||
            fresh) = false →
            t.IsSettled ls validate removable rs i := by
        intro hNone
        rw [hNone] at hKids
        exact hLies.isSettled_of_gaps hi hFuel hKids hBelow.subset
      have hChildren :=
        hTrims.childGaps_again_iff hi
          (fun c hc => ih (hi.tail hc) (by
            have hAbove := (hLies.isTree.above hc).1
            omega))
          (fun c hc => hc) (hLies.siblings hi)
          (hTrims.begin_isMovable hi) hFirst hAgree' hBelow
          hKids hKids'
      rw [← isSettled_iff] at hChildren
      rw [List.append_eq_nil_iff, hChildren, ← and_assoc,
        hSettled hWalked, areSettled_iff, and_assoc]

end Trims

end Tree

end Whittle

------------------------------------------------------------
-- Both Rounds
------------------------------------------------------------

namespace Whittle

namespace Tree

variable {t : Tree} {ls : List Text}

/- What gaps leave of lines is read as lines again. -/
theorem Trims.lines_erased
    {removable : Text → Bool}
    {rs : List Region}
    (hTrims : t.Trims ls removable rs) :
    ∃ text,
      eraseRegions (Text.ofLines ls) rs = .ok text ∧
        text.lines = Text.keepRows (Region.cutIn rs) ls := by
  have hGaps := hTrims.gaps.areGaps
  have hOrder := hTrims.gaps.ordered
  have hSome := hTrims.lines_ne_nil
  refine ⟨_, eraseRegions_of_areGaps hSome hTrims.free hGaps hOrder,
    ?_⟩
  rw [Text.without_gaps hSome hGaps hOrder]
  exact Text.lines_ofLines
    (Text.keepRows_ne_nil _ hSome (Region.isSome_cutIn_last hGaps))
    (Text.newline_not_mem_keepRows _ hTrims.free)

/-
  After the gaps of a tree are trimmed, trimming them again
  finds no region, with one exception.  A gap may end on the
  line of its node, behind white space that is no layout.
  The gaps before the first descendants of this node were
  passed over.  Regions are found again just if one of these
  gaps may be trimmed.
-/
theorem gapRegions_again_iff
    (hLies : t.LiesOver ls)
    (hEnds : ∀ i ∈ t.walk 0, (t.endOf i).IsIn ls)
    (hFree : ∀ l ∈ ls, '\n' ∉ l)
    (validate : Bool) :
    ∃ rs text again,
      t.gapRegions ls validate Python.isRemovableGap = .ok rs ∧
      eraseRegions (Text.ofLines ls) rs = .ok text ∧
      (t.carried ls rs).gapRegions text.lines validate
          Python.isRemovableGap = .ok again ∧
      (again = [] ↔
        ∀ r ∈ rs, ∀ i ∈ t.walk 0, (t.beginOf i).line = r.endLine →
          ∀ j c,
            t.LeadsTo ls validate Python.isRemovableGap i j c →
              (t.foundBefore ls validate Python.isRemovableGap c
                (t.beginOf j) false).regions ⊆ rs) := by
  have hRoot : t.Reaches 0 0 := .refl
  have hFirst : (⟨-1, 0⟩ : Position).atMost (t.beginOf 0) = true := by
    have hLine := (hLies.begin_isIn hRoot).1.1
    rw [Position.atMost_iff]
    dsimp only
    omega
  obtain ⟨rs, hRegions, hGaps⟩ :=
    hLies.exists_gapsFrom validate Python.isRemovableGap t.size
      false hRoot (by simp) hFirst
  have hTrims : t.Trims ls Python.isRemovableGap rs :=
    ⟨hLies, fun i hi => hEnds i (hLies.mem_walk.mpr hi), hFree,
      hGaps⟩
  obtain ⟨text, hErased, hLines⟩ := hTrims.lines_erased
  have hLies' := hTrims.liesOver_carried
  have hMovable : (⟨-1, 0⟩ : Position).IsMovable ls rs := .inl rfl
  have hIn := hLies.begin_isIn hRoot
  have hFirst' :=
    hTrims.moved_atMost hMovable hIn (hTrims.begin_isClear hRoot)
      hFirst
  rw [← hTrims.beginOf_carried hRoot] at hFirst'
  obtain ⟨again, hAgain, -⟩ :=
    hLies'.exists_gapsFrom validate Python.isRemovableGap t.size
      false .refl (by simp [Position.moved]) hFirst'
  refine ⟨rs, text, again, hRegions, hErased, ?_, ?_⟩
  · unfold gapRegions
    rw [hLines, size_carried]
    exact hAgain
  · have hBetween :
        Region.AreBetween rs ⟨-1, 0⟩ (t.endOf 0) rs :=
      ⟨fun r hr => hr, fun r hr => .inr (.inl hr)⟩
    have hAgree : Agree rs ⟨-1, 0⟩ false false :=
      .inl ⟨rfl, fun hFresh => absurd hFresh Bool.false_ne_true⟩
    rw [hTrims.again_iff (by decide) hRoot (Nat.le_add_left _ _)
      hMovable hFirst hAgree hBetween hRegions hAgain]
    constructor
    · rintro ⟨-, hSettled⟩ r hr i hi hLine
      exact hSettled i (hLies.mem_walk.mp hi) ⟨r, hr, hLine.symm⟩
    · intro hAll
      refine ⟨fun hFresh => absurd hFresh (by decide), ?_⟩
      rintro i hi ⟨r, hr, hLine⟩
      exact hAll r hr i (hLies.mem_walk.mpr hi) hLine.symm

/- A list behind a form feed, with two blank lines inside. -/
theorem gapRegions_again_iff_formFeed :
    let t := Tree.siblings (.ofNumbers 2 2 5 3) [.ofNumbers 5 1 5 2]
    let ls := [[], "\x0c[".toList, [], [], "11]".toList]
    t.LiesOver ls ∧ (∀ i ∈ t.walk 0, (t.endOf i).IsIn ls) ∧
      (∀ l ∈ ls, '\n' ∉ l) ∧
      ∃ rs text again,
        t.gapRegions ls true Python.isRemovableGap = .ok rs ∧
        eraseRegions (Text.ofLines ls) rs = .ok text ∧
        (t.carried ls rs).gapRegions text.lines true
            Python.isRemovableGap = .ok again ∧
        again = [⟨1, 2, 0, 0⟩] := by
  intro t ls
  have hLies : t.LiesOver ls := by
    constructor
    · exact Tree.isTree_siblings _ _
    all_goals decide +kernel
  have hEnds : ∀ i ∈ t.walk 0, (t.endOf i).IsIn ls := by
    decide +kernel
  have hFree : ∀ l ∈ ls, '\n' ∉ l := by decide
  refine ⟨hLies, hEnds, hFree, ?_⟩
  obtain ⟨rs, text, again, hRegions, hErased, hAgain, -⟩ :=
    gapRegions_again_iff hLies hEnds hFree true
  refine ⟨rs, text, again, hRegions, hErased, hAgain, ?_⟩
  have hRegions' :
      t.gapRegions ls true Python.isRemovableGap =
        .ok [⟨0, 1, 0, 1⟩] := by
    decide +kernel
  cases hRegions.symm.trans hRegions'
  have hErased' :
      eraseRegions (Text.ofLines ls) [⟨0, 1, 0, 1⟩] =
        .ok "[\n\n\n11]".toList := by
    decide +kernel
  cases hErased.symm.trans hErased'
  have hAgain' :
      (t.carried ls [⟨0, 1, 0, 1⟩]).gapRegions
          (Text.lines "[\n\n\n11]".toList) true
          Python.isRemovableGap = .ok [⟨1, 2, 0, 0⟩] := by
    decide +kernel
  cases hAgain.symm.trans hAgain'
  rfl

end Tree

end Whittle
