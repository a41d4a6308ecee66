import Whittle.Proofs.Edit.Gap

/-
  Trimming the gaps of a tree is safe.

  Key definitions include:
    * `Tree.LiesOver`
    * `Region.Spares`
    * `Tree.AreGaps`

  Main statements:
    * `Tree.LiesOver.gapsFrom_succ`
    * `Tree.LiesOver.exists_gapsFrom`
    * `Tree.gapRegions_areSafe`

  A subtree is trimmed behind a place that no node of it
  begins before.  Its regions then stand between that place
  and its end, each one below the lines of the one before.
-/

------------------------------------------------------------
-- Trees Over A Text
------------------------------------------------------------

namespace Whittle

namespace Tree

/-
  A tree over the lines of a text.
    * `begins` : nodes begin in the text.
    * `upright` : no node begins after its end.
    * `nested` : children lie inside their parents.
    * `ordered` : siblings are in order and apart.
-/
structure LiesOver
    (t : Tree)
    (ls : List Text) : Prop where
  isTree : t.IsTree
  nonempty : 0 < t.size
  begins : ∀ i ∈ t.walk 0, (t.beginOf i).IsIn ls
  upright : ∀ i ∈ t.walk 0,
    (t.span i).first.atMost (t.span i).last = true
  nested : ∀ i ∈ t.walk 0, ∀ c ∈ t.children i,
    (t.span c).IsInside (t.span i)
  ordered : ∀ i ∈ t.walk 0, (t.children i).IsChain fun c d =>
    (t.span c).last.before (t.span d).first = true

variable {t : Tree} {ls : List Text}

/- Counting from zero does not change the order of places. -/
theorem begin_atMost_end
    {i j : Nat} :
    (t.beginOf i).atMost (t.endOf j) = true ↔
      (t.span i).first.atMost (t.span j).last = true := by
  rw [Position.atMost_iff, Position.atMost_iff]
  simp only [beginOf, endOf]
  omega

/- Counting from zero does not change the order of places. -/
theorem end_before_begin
    {i j : Nat} :
    (t.endOf i).before (t.beginOf j) = true ↔
      (t.span i).last.before (t.span j).first = true := by
  rw [Position.before_iff, Position.before_iff]
  simp only [beginOf, endOf]
  omega

namespace LiesOver

variable (hLies : t.LiesOver ls)
include hLies

theorem mem_walk
    {i : Nat} :
    i ∈ t.walk 0 ↔ t.Reaches 0 i :=
  hLies.isTree.mem_walk hLies.nonempty

/- Nodes begin in the text. -/
theorem begin_isIn
    {i : Nat}
    (hi : t.Reaches 0 i) :
    (t.beginOf i).IsIn ls :=
  hLies.begins i (hLies.mem_walk.mpr hi)

/- Nodes begin no later than they end. -/
theorem begin_atMost
    {i : Nat}
    (hi : t.Reaches 0 i) :
    (t.beginOf i).atMost (t.endOf i) = true :=
  begin_atMost_end.mpr (hLies.upright i (hLies.mem_walk.mpr hi))

/- What lies below a node lies inside of it. -/
theorem inside
    {i j : Nat}
    (hi : t.Reaches 0 i)
    (hj : t.Reaches i j) :
    (t.beginOf i).atMost (t.beginOf j) = true ∧
      (t.endOf j).atMost (t.endOf i) = true := by
  have hNested : t.IsNested 0 :=
    fun k hk => hLies.nested k (hLies.mem_walk.mpr hk)
  obtain ⟨hFirst, hLast⟩ := hNested.isInside hi hj
  rw [Position.atMost_iff] at hFirst hLast
  constructor <;> rw [Position.atMost_iff]
  · simp only [beginOf]
    omega
  · simp only [endOf]
    omega

/- A node ends before all its later siblings begin. -/
theorem siblings
    {i : Nat}
    (hi : t.Reaches 0 i) :
    (t.children i).Pairwise fun c d =>
      (t.endOf c).before (t.beginOf d) = true := by
  have hWalk := hLies.mem_walk.mpr hi
  have hUpright :
      ∀ c ∈ t.children i,
        (t.span c).first.atMost (t.span c).last = true :=
    fun c hc => hLies.upright c (hLies.mem_walk.mpr (hi.tail hc))
  exact (pairwise_before_of_isChain hUpright
    (hLies.ordered i hWalk)).imp end_before_begin.mpr

end LiesOver

end Tree

end Whittle

------------------------------------------------------------
-- Looking Before A Node
------------------------------------------------------------

namespace Whittle

namespace Tree

variable {t : Tree} {ls : List Text} {validate : Bool}
variable {removable : Text → Bool}

/- The gap before a node is looked at. -/
def looksAt
    (t : Tree)
    (validate : Bool)
    (i : Nat)
    (p : Position)
    (fresh : Bool) : Bool :=
  !fresh && p.line < (t.beginOf i).line - 1 &&
    (!validate || (t.span i).isProper)

/- What is found before a node. -/
def foundBefore
    (t : Tree)
    (ls : List Text)
    (validate : Bool)
    (removable : Text → Bool)
    (i : Nat)
    (p : Position)
    (fresh : Bool) : GapBefore :=
  if t.looksAt validate i p fresh then
    gapFound ls removable p (t.beginOf i)
  else
    ⟨[], p, false⟩

/- Gaps that are looked at have at least one line. -/
theorem lines_of_looksAt
    {i : Nat}
    {p : Position}
    {fresh : Bool}
    (hLooks : t.looksAt validate i p fresh = true) :
    p.line + 1 < (t.beginOf i).line := by
  simp only [looksAt, Bool.and_eq_true, decide_eq_true_eq] at hLooks
  omega

/- The text before the children of a node ends at its begin. -/
theorem foundBefore_stop
    {i : Nat}
    {p : Position}
    (fresh : Bool)
    (hIn : (t.beginOf i).IsIn ls)
    (hLe : p.atMost (t.beginOf i) = true) :
    (t.foundBefore ls validate removable i p fresh).stop.greatest
        (t.beginOf i) = t.beginOf i := by
  apply Position.greatest_eq
  unfold foundBefore gapFound
  dsimp only
  split
  · split
    · exact (gapStop_bounds hIn).2
    · exact hLe
  · exact hLe

/-
  The regions of a subtree: what is found before its node,
  then those of the children, behind the begin of the node.
-/
theorem LiesOver.gapsFrom_succ
    (hLies : t.LiesOver ls)
    (fuel : Nat)
    {i : Nat}
    {p : Position}
    (fresh : Bool)
    (hi : t.Reaches 0 i)
    (hStart : -1 ≤ p.line)
    (hLe : p.atMost (t.beginOf i) = true) :
    t.gapsFrom ls validate removable (fuel + 1) i p fresh =
      (childGaps (t.gapsFrom ls validate removable fuel) t.endOf
        (t.children i) (t.beginOf i)
        ((t.foundBefore ls validate removable i p fresh).trimmed ||
          fresh)).map
        ((t.foundBefore ls validate removable i p fresh).regions ++
          ·) := by
  have hIn := hLies.begin_isIn hi
  have hFound :
      (if t.looksAt validate i p fresh then
          gapBefore ls removable p (t.beginOf i)
        else .ok ⟨[], p, false⟩) =
        .ok (t.foundBefore ls validate removable i p fresh) := by
    unfold foundBefore
    by_cases hLooks : t.looksAt validate i p fresh = true
    · rw [if_pos hLooks, if_pos hLooks]
      exact gapBefore_eq removable hStart
        (lines_of_looksAt hLooks) hIn
    · rw [if_neg hLooks, if_neg hLooks]
  unfold gapsFrom
  dsimp only
  unfold looksAt at hFound
  rw [hFound]
  dsimp only
  rw [foundBefore_stop fresh hIn hLe]
  cases childGaps (t.gapsFrom ls validate removable fuel) t.endOf
    (t.children i) (t.beginOf i)
    ((t.foundBefore ls validate removable i p fresh).trimmed ||
      fresh) <;> rfl

end Tree

end Whittle

------------------------------------------------------------
-- Regions Of Gaps
------------------------------------------------------------

namespace Whittle

namespace Region

/-
  A region that may be trimmed: it starts with a line, stops
  in the text, holds something, and the hook accepts that.
-/
structure IsGap
    (r : Region)
    (ls : List Text)
    (removable : Text → Bool) : Prop where
  column : r.beginColumn = 0
  line : 0 ≤ r.beginLine
  stop_isIn : r.stop.IsIn ls
  proper : r.start.before r.stop = true
  accepted : removable (r.textIn ls) = true

/-
  A node begins behind a region, or ends above it, or has
  children and lies around it.
-/
def Spares
    (r : Region)
    (t : Tree)
    (i : Nat) : Prop :=
  r.stop.atMost (t.beginOf i) = true ∨
    (t.endOf i).line < r.beginLine ∨
      ((t.beginOf i).line < r.beginLine ∧
        r.stop.atMost (t.endOf i) = true ∧ t.children i ≠ [])

end Region

namespace Tree

/-
  Regions that trim gaps between two places and stay clear of
  some nodes.
-/
structure AreGaps
    (t : Tree)
    (ls : List Text)
    (removable : Text → Bool)
    (isSpared : Nat → Prop)
    (p q : Position)
    (rs : List Region) : Prop where
  areGaps : ∀ r ∈ rs, r.IsGap ls removable
  ordered : rs.Pairwise fun r s => r.endLine < s.beginLine
  after : ∀ r ∈ rs, p.line < r.beginLine
  upTo : ∀ r ∈ rs, r.stop.atMost q = true
  spares : ∀ r ∈ rs, ∀ i, isSpared i → r.Spares t i

variable {t : Tree} {ls : List Text} {validate : Bool}
variable {removable : Text → Bool} {isSpared : Nat → Prop}
variable {p q : Position} {rs : List Region}

theorem areGaps_nil :
    t.AreGaps ls removable isSpared p q [] := by
  constructor <;> simp

theorem AreGaps.append
    {isSpared' isSpared'' : Nat → Prop}
    {m : Position}
    {more : List Region}
    (hLow : t.AreGaps ls removable isSpared p m rs)
    (hHigh : t.AreGaps ls removable isSpared' m q more)
    (hpm : p.line ≤ m.line)
    (hmq : m.atMost q = true)
    (hSpares : ∀ i, isSpared'' i →
      (∀ r ∈ rs, r.Spares t i) ∧ ∀ r ∈ more, r.Spares t i) :
    t.AreGaps ls removable isSpared'' p q (rs ++ more) := by
  constructor
  · intro r hr
    rcases List.mem_append.mp hr with hr | hr
    · exact hLow.areGaps r hr
    · exact hHigh.areGaps r hr
  · rw [List.pairwise_append]
    refine ⟨hLow.ordered, hHigh.ordered, ?_⟩
    intro r hr s hs
    have hUp := hLow.upTo r hr
    have hAfter := hHigh.after s hs
    rw [Position.atMost_iff] at hUp
    simp only [Region.stop] at hUp
    omega
  · intro r hr
    rcases List.mem_append.mp hr with hr | hr
    · exact hLow.after r hr
    · have hAfter := hHigh.after r hr
      omega
  · intro r hr
    rcases List.mem_append.mp hr with hr | hr
    · exact Position.atMost_trans (hLow.upTo r hr) hmq
    · exact hHigh.upTo r hr
  · intro r hr i hi
    rcases List.mem_append.mp hr with hr | hr
    · exact (hSpares i hi).1 r hr
    · exact (hSpares i hi).2 r hr

/- What is found before a node stands before it. -/
theorem LiesOver.areGaps_foundBefore
    (hLies : t.LiesOver ls)
    (validate : Bool)
    (removable : Text → Bool)
    {i : Nat}
    (fresh : Bool)
    (hi : t.Reaches 0 i)
    (hStart : -1 ≤ p.line) :
    t.AreGaps ls removable (t.Reaches i) p (t.beginOf i)
      (t.foundBefore ls validate removable i p fresh).regions := by
  have hIn := hLies.begin_isIn hi
  have hStop := (gapStop_bounds hIn).2
  unfold foundBefore gapFound
  dsimp only
  split
  · split
    · rename_i hRemoved
      split
      · rename_i hProper
        constructor
        · intro r hr
          rw [List.mem_singleton] at hr
          subst hr
          refine ⟨rfl, ?_, gapStop_isIn hIn, hProper, ?_⟩
          · simp only [gapRegion]
            omega
          · exact (Bool.and_eq_true_iff.mp hRemoved).2
        · exact List.pairwise_singleton _ _
        · simp only [gapRegion, List.mem_singleton, forall_eq]
          omega
        · simpa [gapRegion, Region.stop] using hStop
        · intro r hr k hk
          rw [List.mem_singleton] at hr
          subst hr
          exact .inl
            (Position.atMost_trans hStop (hLies.inside hi hk).1)
      · exact areGaps_nil
    · exact areGaps_nil
  · exact areGaps_nil

/-
  The regions of siblings, each looked at behind the end of
  the one before.
-/
theorem LiesOver.exists_childGaps
    (hLies : t.LiesOver ls)
    {look : Nat → Position → Bool →
      Except GapError (List Region)}
    {cs : List Nat}
    (fresh : Bool)
    (hLook : ∀ c ∈ cs, ∀ p fresh, -1 ≤ p.line →
      p.atMost (t.beginOf c) = true →
        ∃ rs, look c p fresh = .ok rs ∧
          t.AreGaps ls removable (t.Reaches c) p (t.endOf c) rs)
    (hReach : ∀ c ∈ cs, t.Reaches 0 c)
    (hOrder : cs.Pairwise fun c d =>
      (t.endOf c).before (t.beginOf d) = true)
    (hStart : -1 ≤ p.line)
    (hFirst : ∀ c ∈ cs, p.atMost (t.beginOf c) = true)
    (hLast : ∀ c ∈ cs, (t.endOf c).atMost q = true) :
    ∃ rs, childGaps look t.endOf cs p fresh = .ok rs ∧
      t.AreGaps ls removable (fun i => ∃ c ∈ cs, t.Reaches c i)
        p q rs := by
  induction cs generalizing p fresh with
  | nil => exact ⟨[], rfl, areGaps_nil⟩
  | cons c rest ih =>
      obtain ⟨hLater, hOrder'⟩ := List.pairwise_cons.mp hOrder
      have hc := hReach c (by simp)
      have hBegin := hFirst c (by simp)
      have hEnd := Position.atMost_trans hBegin (hLies.begin_atMost hc)
      have hEndLine := Position.atMost_iff.mp hEnd
      obtain ⟨rs, hRegions, hGaps⟩ :=
        hLook c (by simp) p fresh hStart hBegin
      obtain ⟨more, hMore, hGaps'⟩ :=
        ih (p := t.endOf c) false
          (fun d hd => hLook d (List.mem_cons_of_mem c hd))
          (fun d hd => hReach d (List.mem_cons_of_mem c hd))
          hOrder' (by omega)
          (fun d hd => Position.atMost_of_before (hLater d hd))
          (fun d hd => hLast d (List.mem_cons_of_mem c hd))
      refine ⟨rs ++ more, ?_, ?_⟩
      · rw [childGaps, hRegions]
        dsimp only
        rw [Position.greatest_eq hEnd, hMore]
      · apply hGaps.append hGaps' (by omega) (hLast c (by simp))
        rintro i ⟨d, hd, hi⟩
        constructor
        · intro r hr
          rcases List.mem_cons.mp hd with rfl | hd
          · exact hGaps.spares r hr i hi
          · -- later siblings begin behind the end of `c`
            have hInside :=
              hLies.inside (hReach d (List.mem_cons_of_mem c hd)) hi
            have hBehind :=
              Position.atMost_of_before (hLater d hd)
            exact .inl (Position.atMost_trans (hGaps.upTo r hr)
              (Position.atMost_trans hBehind hInside.1))
        · intro r hr
          rcases List.mem_cons.mp hd with rfl | hd
          · -- the regions of later siblings start below `d`
            have hInside := (hLies.inside hc hi).2
            have hAfter := hGaps'.after r hr
            rw [Position.atMost_iff] at hInside
            exact .inr (.inl (by omega))
          · exact hGaps'.spares r hr i ⟨d, hd, hi⟩

/-
  Trimming a subtree behind a place that it does not begin
  before never fails.
-/
theorem LiesOver.exists_gapsFrom
    (hLies : t.LiesOver ls)
    (validate : Bool)
    (removable : Text → Bool)
    (fuel : Nat)
    {i : Nat}
    (fresh : Bool)
    (hi : t.Reaches 0 i)
    (hStart : -1 ≤ p.line)
    (hLe : p.atMost (t.beginOf i) = true) :
    ∃ rs, t.gapsFrom ls validate removable fuel i p fresh =
        .ok rs ∧
      t.AreGaps ls removable (t.Reaches i) p (t.endOf i) rs := by
  induction fuel generalizing i p fresh with
  | zero => exact ⟨[], rfl, areGaps_nil⟩
  | succ fuel ih =>
      have hIn := hLies.begin_isIn hi
      have hUpright := hLies.begin_atMost hi
      have hFound :=
        hLies.areGaps_foundBefore validate removable fresh hi
          hStart
      obtain ⟨rs, hRegions, hGaps⟩ :=
        hLies.exists_childGaps (q := t.endOf i)
          ((t.foundBefore ls validate removable i p fresh).trimmed ||
            fresh)
          (fun c hc p fresh => ih fresh (hi.tail hc))
          (fun c hc => hi.tail hc) (hLies.siblings hi)
          (p := t.beginOf i) (by have := hIn.1.1; omega)
          (fun c hc => (hLies.inside hi (.single hc)).1)
          (fun c hc => (hLies.inside hi (.single hc)).2)
      refine ⟨(t.foundBefore ls validate removable i p
        fresh).regions ++ rs, ?_, ?_⟩
      · rw [hLies.gapsFrom_succ fuel fresh hi hStart hLe, hRegions]
        rfl
      · have hLine := Position.atMost_iff.mp hLe
        apply hFound.append hGaps (by omega) hUpright
        intro k hk
        refine ⟨fun r hr => hFound.spares r hr k hk, ?_⟩
        intro r hr
        rcases Relation.ReflTransGen.cases_head hk with
          rfl | ⟨c, hc, hBelow⟩
        · -- a region behind the begin of `i` belongs to a child
          have hSome : t.children i ≠ [] := by
            intro hNone
            rw [hNone] at hRegions
            cases hRegions
            cases hr
          exact .inr (.inr
            ⟨hGaps.after r hr, hGaps.upTo r hr, hSome⟩)
        · exact hGaps.spares r hr k ⟨c, hc, hBelow⟩

/- The regions of some siblings are found. -/
theorem LiesOver.exists_siblingGaps
    (hLies : t.LiesOver ls)
    (validate : Bool)
    (removable : Text → Bool)
    (fuel : Nat)
    {i : Nat}
    (hi : t.Reaches 0 i)
    {cs : List Nat}
    (hChildren : ∀ c ∈ cs, c ∈ t.children i)
    (hOrder : cs.Pairwise fun c d =>
      (t.endOf c).before (t.beginOf d) = true)
    (fresh : Bool)
    (hStart : -1 ≤ p.line)
    (hFirst : ∀ c ∈ cs, p.atMost (t.beginOf c) = true) :
    ∃ kids,
      childGaps (t.gapsFrom ls validate removable fuel) t.endOf cs
          p fresh = .ok kids ∧
        t.AreGaps ls removable (fun k => ∃ c ∈ cs, t.Reaches c k)
          p (t.endOf i) kids :=
  hLies.exists_childGaps fresh
    (fun c hc _ fresh => hLies.exists_gapsFrom validate removable
      fuel fresh (hi.tail (hChildren c hc)))
    (fun c hc => hi.tail (hChildren c hc)) hOrder hStart hFirst
    (fun c hc => (hLies.inside hi (.single (hChildren c hc))).2)

end Tree

end Whittle

------------------------------------------------------------
-- The Characters Of Gaps
------------------------------------------------------------

namespace Whittle

namespace Region

namespace IsGap

variable {ls : List Text} {removable : Text → Bool} {r : Region}
variable (hGap : r.IsGap ls removable)
include hGap

/- A gap is not inverted. -/
theorem atMost :
    r.start.atMost r.stop = true :=
  Position.atMost_of_before hGap.proper

/- A gap is located in the text. -/
theorem locate_eq :
    r.locate ls =
      .ok ⟨r.start.offsetIn ls, r.stop.offsetIn ls, r⟩ :=
  Region.locate_eq hGap.line hGap.stop_isIn.1.2 hGap.atMost

/- The offsets that a gap covers. -/
theorem covers_iff
    {o : Nat} :
    r.covers ls o = true ↔
      r.start.offsetIn ls ≤ o ∧ o < r.stop.offsetIn ls := by
  rw [covers_eq hGap.line hGap.stop_isIn.1.2 hGap.atMost]
  simp

/- A gap starts in the text. -/
theorem start_isIn :
    r.start.IsIn ls := by
  have hStop := hGap.stop_isIn.1
  have hBefore := Position.before_iff.mp hGap.proper
  have hColumn := hGap.column
  have hLine := hGap.line
  simp only [start, stop] at *
  refine ⟨⟨?_, ?_⟩, ?_, ?_⟩ <;> dsimp only <;> omega

theorem textIn_ne_nil :
    r.textIn ls ≠ [] := by
  have hLt := Position.offsetIn_lt hGap.start_isIn
    hGap.stop_isIn hGap.proper
  have hLength := Position.offsetIn_le_length hGap.stop_isIn
  have hText :
      r.textIn ls =
        ((Text.ofLines ls).drop (r.start.offsetIn ls)).take
          (r.stop.offsetIn ls - r.start.offsetIn ls) := by
    unfold textIn
    simp only [covers_eq hGap.line hGap.stop_isIn.1.2 hGap.atMost]
    exact Text.without_outside (Nat.le_of_lt hLt) _
  intro hNone
  have hZero := congrArg List.length (hText.symm.trans hNone)
  rw [List.length_take, List.length_drop, List.length_nil] at hZero
  omega

/- What stands above a gap is not covered. -/
theorem lt_start
    {p : Position}
    (hLine : 0 ≤ p.line)
    (hAbove : p.line < r.beginLine) :
    p.offsetIn ls < r.start.offsetIn ls := by
  have hStart := hGap.start_isIn.1
  have hColumn := hGap.column
  rw [Position.offsetIn_eq hGap.start_isIn]
  simp only [start] at *
  have hLt :
      p.offsetIn ls < lineOffset ls r.beginLine.toNat :=
    Position.offsetIn_lt_lineOffset hLine (by omega) (by omega)
  omega

end IsGap

end Region

end Whittle

------------------------------------------------------------
-- Trimming A Tree
------------------------------------------------------------

namespace Whittle

variable {t : Tree} {ls : List Text} {removable : Text → Bool}
variable {rs : List Region}

theorem not_covers_both
    {r s : Region}
    (hr : r.IsGap ls removable)
    (hs : s.IsGap ls removable)
    (hBelow : r.endLine < s.beginLine)
    (o : Nat) :
    ¬ (r.covers ls o = true ∧ s.covers ls o = true) := by
  have hLt := hs.lt_start hr.stop_isIn.1.1 hBelow
  rw [hr.covers_iff, hs.covers_iff]
  omega

/- Trimming gaps that are in order erases what they cover. -/
theorem eraseRegions_of_areGaps
    (hSome : ls ≠ [])
    (hFree : ∀ l ∈ ls, '\n' ∉ l)
    (hGaps : ∀ r ∈ rs, r.IsGap ls removable)
    (hOrder : rs.Pairwise fun r s => r.endLine < s.beginLine) :
    eraseRegions (Text.ofLines ls) rs =
      .ok
        ((Text.ofLines ls).without fun o =>
          rs.any (·.covers ls o)) := by
  let locate : Region → Region.Located := fun r =>
    ⟨r.start.offsetIn ls, r.stop.offsetIn ls, r⟩
  have hLocated :
      rs.mapM (Region.locate (Text.ofLines ls).lines) =
        .ok (rs.map locate) := by
    rw [Text.lines_ofLines hSome hFree]
    clear hOrder
    induction rs with
    | nil => rfl
    | cons r rest ih =>
        rw [List.mapM_cons, (hGaps r (by simp)).locate_eq,
          ih (fun s hs => hGaps s (List.mem_cons_of_mem r hs))]
        rfl
  have hApart :
      (rs.map locate).Pairwise Region.Located.IsApart := by
    refine List.pairwise_map.mpr (hOrder.imp_of_mem ?_)
    intro r s hr hs hBelow
    have hLt := (hGaps s hs).lt_start
      (hGaps r hr).stop_isIn.1.1 hBelow
    exact .inl (Nat.le_of_lt hLt)
  rw [eraseRegions_eq hLocated
    (hApart.sublist List.filter_sublist)]
  refine congrArg Except.ok (Text.withoutFrom_congr ?_ _)
  intro o _
  rw [Bool.eq_iff_iff, List.any_map, List.any_eq_true,
    List.any_eq_true]
  constructor
  · rintro ⟨r, hr, hCovers⟩
    refine ⟨r, hr, (hGaps r hr).covers_iff.mpr ?_⟩
    simpa [Region.Located.covers, locate] using hCovers
  · rintro ⟨r, hr, hCovers⟩
    refine ⟨r, hr, ?_⟩
    simpa [Region.Located.covers, locate] using
      (hGaps r hr).covers_iff.mp hCovers

/-
  The regions of a spared node leave its first character and,
  if the node has no children, all of its characters.
-/
theorem Region.Spares.not_covers
    {r : Region}
    {i o : Nat}
    (hSpares : r.Spares t i)
    (hGap : r.IsGap ls removable)
    (hIn : (t.beginOf i).IsIn ls)
    (hUpright : (t.beginOf i).atMost (t.endOf i) = true)
    (hCovers : r.covers ls o = true) :
    o ≠ (t.beginOf i).offsetIn ls ∧
      (t.children i = [] →
        ¬ ((t.beginOf i).offsetIn ls ≤ o ∧
          o ≤ (t.endOf i).offsetIn ls)) := by
  have hLine := hIn.1
  have hEndLine := Position.atMost_iff.mp hUpright
  rw [hGap.covers_iff] at hCovers
  rcases hSpares with hBehind | hAbove | ⟨hAround, _, hSome⟩
  · have hLe := Position.offsetIn_le hGap.stop_isIn.1.1 hLine.2
      hBehind
    omega
  · have hLt := hGap.lt_start (p := t.endOf i) (by omega) hAbove
    have hStart := hGap.lt_start hLine.1 (by omega)
    omega
  · have hStart := hGap.lt_start hLine.1 hAround
    exact ⟨by omega, fun hNone => absurd hNone hSome⟩

/-
  Trimming the gaps of a tree over the lines of a text never
  reaches outside of them.  The regions can be erased: they
  are in order, apart and not empty, start with a line, and
  the hook has accepted what each of them covers.  No region
  covers the first character of a node, nor any character of
  a node without children.
-/
theorem Tree.gapRegions_areSafe
    (hLies : t.LiesOver ls)
    (hFree : ∀ l ∈ ls, '\n' ∉ l)
    (validate : Bool)
    (removable : Text → Bool) :
    ∃ rs, t.gapRegions ls validate removable = .ok rs ∧
      eraseRegions (Text.ofLines ls) rs =
        .ok
          ((Text.ofLines ls).without fun o =>
            rs.any (·.covers ls o)) ∧
      rs.Pairwise (fun r s =>
        (r.isAtMost s = true ∧ r ≠ s) ∧
          ∀ o, ¬ (r.covers ls o = true ∧ s.covers ls o = true)) ∧
      (∀ r ∈ rs,
        r.beginColumn = 0 ∧ r.textIn ls ≠ [] ∧
          removable (r.textIn ls) = true) ∧
      ∀ i ∈ t.walk 0, ∀ r ∈ rs, ∀ o, r.covers ls o = true →
        o ≠ (t.beginOf i).offsetIn ls ∧
          (t.children i = [] →
            ¬ ((t.beginOf i).offsetIn ls ≤ o ∧
              o ≤ (t.endOf i).offsetIn ls)) := by
  have hRoot : t.Reaches 0 0 := .refl
  have hIn := hLies.begin_isIn hRoot
  have hSome : ls ≠ [] := by
    rintro rfl
    have hLine := hIn.1
    simp at hLine
    omega
  have hFirst : (⟨-1, 0⟩ : Position).atMost (t.beginOf 0) = true := by
    have hLine := hIn.1.1
    rw [Position.atMost_iff]
    dsimp only
    omega
  obtain ⟨rs, hRegions, hGaps⟩ :=
    hLies.exists_gapsFrom validate removable t.size false hRoot
      (by simp) hFirst
  refine ⟨rs, hRegions,
    eraseRegions_of_areGaps hSome hFree hGaps.areGaps hGaps.ordered,
    ?_, ?_, ?_⟩
  · refine hGaps.ordered.imp_of_mem ?_
    intro r s hr hs hBelow
    have hLines : r.beginLine ≤ r.endLine := by
      have hLe :=
        Position.atMost_iff.mp (hGaps.areGaps r hr).atMost
      simp only [Region.start, Region.stop] at hLe
      omega
    have hNe : r.beginLine ≠ s.beginLine := by omega
    refine ⟨⟨?_, fun hEq => hNe (by rw [hEq])⟩,
      not_covers_both (hGaps.areGaps r hr) (hGaps.areGaps s hs)
        hBelow⟩
    unfold Region.isAtMost
    rw [if_pos hNe, decide_eq_true_eq]
    omega
  · intro r hr
    have hGap := hGaps.areGaps r hr
    exact ⟨hGap.column, hGap.textIn_ne_nil, hGap.accepted⟩
  · intro i hi r hr o hCovers
    have hReach := hLies.mem_walk.mp hi
    exact (hGaps.spares r hr i hReach).not_covers
      (hGaps.areGaps r hr) (hLies.begin_isIn hReach)
      (hLies.begin_atMost hReach) hCovers

/- The lines between two words are trimmed. -/
theorem Tree.gapRegions_areSafe_words :
    let t :=
      Tree.siblings (.ofNumbers 1 1 4 4)
        [.ofNumbers 1 1 1 2, .ofNumbers 4 3 4 4]
    let ls :=
      ["ab".toList, "# c".toList, [], "  cd".toList]
    t.LiesOver ls ∧ (∀ l ∈ ls, '\n' ∉ l) ∧
      ∃ rs, t.gapRegions ls true (fun _ => true) = .ok rs ∧
        rs.length = 1 ∧
        eraseRegions (Text.ofLines ls) rs =
          .ok "ab\n\n  cd".toList := by
  intro t ls
  have hLies : t.LiesOver ls := by
    constructor
    · exact Tree.isTree_siblings _ _
    all_goals decide +kernel
  have hFree : ∀ l ∈ ls, '\n' ∉ l := by decide
  have hRegions :
      t.gapRegions ls true (fun _ => true) = .ok [⟨1, 2, 0, 0⟩] := by
    decide +kernel
  refine ⟨hLies, hFree, ?_⟩
  obtain ⟨rs, hFound, hErased, -⟩ :=
    Tree.gapRegions_areSafe hLies hFree true fun _ => true
  refine ⟨rs, hFound, ?_⟩
  rw [hRegions] at hFound
  cases hFound
  refine ⟨rfl, hErased.trans ?_⟩
  decide +kernel

end Whittle
