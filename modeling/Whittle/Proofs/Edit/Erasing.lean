import Whittle.Edit.Region

/-
  What is left of a text when regions are erased.

  Key definitions include:
    * `Text.without`
    * `Region.covers`
    * `Region.Located.IsApart`

  Main statements:
    * `eraseFrom_eq`
    * `eraseRegions_eq`
    * `eraseRegions_sublist`

  Erasing copies what stands between the regions, one region
  after the other.  Its meaning is a filter: each character
  is kept if no region covers its offset.
-/

------------------------------------------------------------
-- Texts Without Some Characters
------------------------------------------------------------

namespace Whittle

namespace Text

/-
  A text without the characters whose offsets satisfy a test.
  The first character has offset `pos`.
-/
def withoutFrom
    (pos : Nat)
    (isErased : Nat → Bool)
    (t : Text) : Text :=
  ((t.zipIdx pos).filter fun c => !isErased c.2).map Prod.fst

/- A text without the characters whose offsets satisfy a test. -/
def without
    (isErased : Nat → Bool)
    (t : Text) : Text :=
  t.withoutFrom 0 isErased

variable {pos : Nat} {isErased isErased' : Nat → Bool}

theorem withoutFrom_cons
    (c : Char)
    (rest : Text) :
    withoutFrom pos isErased (c :: rest) =
      if isErased pos then withoutFrom (pos + 1) isErased rest
      else c :: withoutFrom (pos + 1) isErased rest := by
  unfold withoutFrom
  rw [List.zipIdx_cons, List.filter_cons]
  cases isErased pos <;> rfl

theorem withoutFrom_congr
    (hSame : ∀ o, pos ≤ o → isErased o = isErased' o)
    (t : Text) :
    withoutFrom pos isErased t = withoutFrom pos isErased' t := by
  induction t generalizing pos with
  | nil => rfl
  | cons c rest ih =>
      rw [withoutFrom_cons, withoutFrom_cons,
        hSame pos (Nat.le_refl pos), ih]
      exact fun o hLe => hSame o (by omega)

/- Characters at the start that are not erased are kept. -/
theorem withoutFrom_keep
    {n : Nat}
    (hNone : ∀ o, pos ≤ o → o < pos + n → isErased o = false)
    (t : Text) :
    withoutFrom pos isErased t =
      t.take n ++ withoutFrom (pos + n) isErased (t.drop n) := by
  induction n generalizing pos t with
  | zero => rfl
  | succ n ih =>
      cases t with
      | nil => rfl
      | cons c rest =>
          rw [withoutFrom_cons, hNone pos (by omega) (by omega),
            ih (fun o hLe hLt => hNone o (by omega) (by omega)),
            Nat.add_assoc, Nat.add_comm 1 n]
          rfl

/- Characters at the start that are erased are dropped. -/
theorem withoutFrom_drop
    {n : Nat}
    (hAll : ∀ o, pos ≤ o → o < pos + n → isErased o = true)
    (t : Text) :
    withoutFrom pos isErased t =
      withoutFrom (pos + n) isErased (t.drop n) := by
  induction n generalizing pos t with
  | zero => rfl
  | succ n ih =>
      cases t with
      | nil => rfl
      | cons c rest =>
          rw [withoutFrom_cons, hAll pos (by omega) (by omega),
            ih (fun o hLe hLt => hAll o (by omega) (by omega)),
            Nat.add_assoc, Nat.add_comm 1 n]
          rfl

end Text

end Whittle

------------------------------------------------------------
-- Located Regions
------------------------------------------------------------

namespace Whittle

namespace Region

namespace Located

/- The region covers an offset. -/
def covers
    (r : Located)
    (o : Nat) : Bool :=
  r.start ≤ o && o < r.stop

/- One of the two regions stops before the other starts. -/
def IsApart
    (r s : Located) : Prop :=
  r.stop ≤ s.start ∨ s.stop ≤ r.start

theorem IsApart.symm
    {r s : Located}
    (hApart : r.IsApart s) :
    s.IsApart r :=
  Or.symm hApart

/- Some of the regions cover an offset. -/
theorem any_covers_eq_true
    {rs : List Located}
    {o : Nat} :
    rs.any (·.covers o) = true ↔
      ∃ r ∈ rs, r.start ≤ o ∧ o < r.stop := by
  simp [covers]

/- None of the regions covers an offset. -/
theorem any_covers_eq_false
    {rs : List Located}
    {o : Nat}
    (hNone : ∀ r ∈ rs, o < r.start ∨ r.stop ≤ o) :
    rs.any (·.covers o) = false := by
  rw [List.any_eq_false]
  intro r hr
  have hOut := hNone r hr
  simp only [covers, Bool.and_eq_true, decide_eq_true_eq]
  omega

end Located

end Region

/-
  Regions that follow each other are erased, and nothing else
  is.
-/
theorem eraseFrom_eq
    {pos : Nat}
    {previous : Region}
    {rest : Text}
    {rs : List Region.Located}
    (hProper : ∀ r ∈ rs, r.start < r.stop)
    (hAfter : ∀ r ∈ rs, pos ≤ r.start)
    (hOrder : rs.Pairwise fun a b => a.stop ≤ b.start) :
    eraseFrom pos previous rest rs =
      .ok
        (rest.withoutFrom pos fun o => rs.any (·.covers o)) := by
  induction rs generalizing pos previous rest with
  | nil =>
      have hNone :
          ∀ o, pos ≤ o → o < pos + rest.length →
            ([] : List Region.Located).any (·.covers o) =
              false :=
        fun _ _ _ => rfl
      rw [eraseFrom, Text.withoutFrom_keep hNone,
        List.take_length, List.drop_length]
      exact congrArg Except.ok (List.append_nil rest).symm
  | cons r more ih =>
      have hStart := hAfter r (by simp)
      have hStop := hProper r (by simp)
      obtain ⟨hLater, hOrder'⟩ := List.pairwise_cons.mp hOrder
      have hTail :
          eraseFrom r.stop r.region (rest.drop (r.stop - pos))
              more =
            .ok
              (Text.withoutFrom r.stop
                (fun o => more.any (·.covers o))
                (rest.drop (r.stop - pos))) :=
        ih (fun s hs => hProper s (List.mem_cons_of_mem r hs))
          hLater hOrder'
      rw [eraseFrom, if_neg (by omega), hTail]
      refine congrArg Except.ok ?_
      -- before `r` nothing is erased, within it everything is
      have hBefore :
          ∀ o, pos ≤ o → o < pos + (r.start - pos) →
            (r :: more).any (·.covers o) = false := by
        intro o _ hLt
        apply Region.Located.any_covers_eq_false
        intro s hs
        rcases List.mem_cons.mp hs with rfl | hMore
        · omega
        · have hLe := hLater s hMore
          omega
      have hWithin :
          ∀ o, r.start ≤ o → o < r.start + (r.stop - r.start) →
            (r :: more).any (·.covers o) = true := by
        intro o hLe hLt
        exact Region.Located.any_covers_eq_true.mpr
          ⟨r, by simp, hLe, by omega⟩
      have hBeyond :
          ∀ o, r.stop ≤ o →
            more.any (·.covers o) =
              (r :: more).any (·.covers o) := by
        intro o hLe
        have hOut : r.covers o = false := by
          simp only [Region.Located.covers, Bool.and_eq_false_iff,
            decide_eq_false_iff_not]
          omega
        rw [List.any_cons, hOut, Bool.false_or]
      rw [Text.withoutFrom_keep hBefore,
        Nat.add_sub_cancel' hStart,
        Text.withoutFrom_drop hWithin,
        Nat.add_sub_cancel' (Nat.le_of_lt hStop), List.drop_drop,
        Text.withoutFrom_congr hBeyond]
      congr 3
      omega

/- The order of regions by their starts. -/
theorem pairwise_sorted
    {located : List Region.Located}
    (hProper : ∀ r ∈ located, r.start < r.stop)
    (hApart : located.Pairwise Region.Located.IsApart) :
    (located.mergeSort fun a b => a.start ≤ b.start).Pairwise
      fun a b => a.stop ≤ b.start := by
  have hPerm :=
    List.mergeSort_perm located fun a b => a.start ≤ b.start
  have hSorted :
      (located.mergeSort fun a b => a.start ≤ b.start).Pairwise
        fun a b => decide (a.start ≤ b.start) = true := by
    apply List.pairwise_mergeSort
    · simp only [decide_eq_true_eq]
      exact fun _ _ _ h₁ h₂ => Nat.le_trans h₁ h₂
    · simp only [Bool.or_eq_true, decide_eq_true_eq]
      exact fun a b => Nat.le_total a.start b.start
  have hApart' :=
    (hPerm.pairwise_iff Region.Located.IsApart.symm).mpr hApart
  refine (hSorted.and hApart').imp_of_mem ?_
  rintro a b ha hb ⟨hLe, hStop | hStop⟩
  · exact hStop
  · have hLt := hProper b (hPerm.mem_iff.mp hb)
    rw [decide_eq_true_eq] at hLe
    omega

/-
  Regions that have been located and are apart are erased,
  and nothing else is.  Empty regions may lie anywhere.
-/
theorem eraseRegions_eq
    {t : Text}
    {regions : List Region}
    {located : List Region.Located}
    (hLocated :
      regions.mapM (Region.locate t.lines) = .ok located)
    (hApart :
      (located.filter fun r => r.start < r.stop).Pairwise
        Region.Located.IsApart) :
    eraseRegions t regions =
      .ok (t.without fun o => located.any (·.covers o)) := by
  have hProper :
      ∀ r ∈ located.filter fun r => r.start < r.stop,
        r.start < r.stop := by
    intro r hr
    simpa using (List.mem_filter.mp hr).2
  have hMem :
      ∀ r, r ∈ (located.filter fun r => r.start < r.stop).mergeSort
        (fun a b => a.start ≤ b.start) ↔
          r ∈ located ∧ r.start < r.stop := by
    intro r
    rw [List.mem_mergeSort, List.mem_filter, decide_eq_true_eq]
  have hSame :
      ∀ o, ((located.filter fun r => r.start < r.stop).mergeSort
        (fun a b => a.start ≤ b.start)).any (·.covers o) =
          located.any (·.covers o) := by
    intro o
    rw [Bool.eq_iff_iff, Region.Located.any_covers_eq_true,
      Region.Located.any_covers_eq_true]
    constructor
    · rintro ⟨r, hr, hCovers⟩
      exact ⟨r, ((hMem r).mp hr).1, hCovers⟩
    · rintro ⟨r, hr, hStart, hStop⟩
      exact ⟨r, (hMem r).mpr ⟨hr, by omega⟩, hStart, hStop⟩
  unfold eraseRegions
  dsimp only
  rw [hLocated]
  refine (eraseFrom_eq ?_ (fun _ _ => Nat.zero_le _)
    (pairwise_sorted hProper hApart)).trans ?_
  · exact fun r hr => ((hMem r).mp hr).2
  · refine congrArg Except.ok (Text.withoutFrom_congr ?_ t)
    exact fun o _ => hSame o

/- Regions that are in order already need no sorting. -/
theorem eraseRegions_of_sorted
    {t : Text}
    {regions : List Region}
    {located : List Region.Located}
    (hLocated :
      regions.mapM (Region.locate t.lines) = .ok located)
    (hSorted :
      (located.filter fun r => r.start < r.stop).Pairwise
        fun a b => decide (a.start ≤ b.start) = true) :
    eraseRegions t regions =
      eraseFrom 0 default t
        (located.filter fun r => r.start < r.stop) := by
  unfold eraseRegions
  dsimp only
  rw [hLocated]
  exact congrArg (eraseFrom 0 default t)
    (List.mergeSort_of_pairwise hSorted)

end Whittle

------------------------------------------------------------
-- Nothing Is Added
------------------------------------------------------------

namespace Whittle

theorem take_append_sublist
    {α : Type}
    {xs ys : List α}
    {m n : Nat}
    (hLe : m ≤ n)
    (hSub : ys.Sublist (xs.drop n)) :
    (xs.take m ++ ys).Sublist xs := by
  have hDrop : ys.Sublist (xs.drop m) := by
    apply hSub.trans
    rw [← Nat.add_sub_cancel' hLe, ← List.drop_drop]
    exact List.drop_sublist _ _
  calc
    (xs.take m ++ ys).Sublist (xs.take m ++ xs.drop m) :=
      (List.Sublist.refl _).append hDrop
    _ = xs := List.take_append_drop m xs

/- Erasing regions that are located adds no character. -/
theorem eraseFrom_sublist
    {pos : Nat}
    {previous : Region}
    {rest t : Text}
    {rs : List Region.Located}
    (hProper : ∀ r ∈ rs, r.start < r.stop)
    (hErase : eraseFrom pos previous rest rs = .ok t) :
    t.Sublist rest := by
  induction rs generalizing pos previous rest t with
  | nil =>
      cases hErase
      exact List.Sublist.refl _
  | cons r more ih =>
      have hStop := hProper r (by simp)
      unfold eraseFrom at hErase
      split at hErase
      · cases hErase
      · cases hTail :
            eraseFrom r.stop r.region (rest.drop (r.stop - pos))
              more with
        | error e =>
            rw [hTail] at hErase
            cases hErase
        | ok tail =>
            rw [hTail] at hErase
            cases hErase
            apply take_append_sublist (n := r.stop - pos)
            · omega
            · exact ih
                (fun s hs => hProper s (List.mem_cons_of_mem r hs))
                hTail

/- Erasing regions adds no character to a text. -/
theorem eraseRegions_sublist
    {t t' : Text}
    {regions : List Region}
    (hErase : eraseRegions t regions = .ok t') :
    t'.Sublist t := by
  unfold eraseRegions at hErase
  dsimp only at hErase
  cases hLocate : regions.mapM (Region.locate t.lines) with
  | error e =>
      rw [hLocate] at hErase
      cases hErase
  | ok located =>
      rw [hLocate] at hErase
      refine eraseFrom_sublist ?_ hErase
      intro r hr
      have hProper := (List.mem_mergeSort.mp hr)
      simpa using (List.mem_filter.mp hProper).2

end Whittle
