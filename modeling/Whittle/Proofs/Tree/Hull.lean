import Whittle.Tree.Span

/-
  The order of positions, and the least span over others.

  Key definitions include:
    * `Span.IsHull`

  Main statements:
    * `Span.IsHull.hull`
    * `Span.isHull_foldl`
    * `Span.IsHull.isInside`
-/

------------------------------------------------------------
-- The Order Of Positions
------------------------------------------------------------

namespace Whittle

namespace Position

variable {p q : Position}

/- The order of positions, line by line. -/
theorem before_iff :
    p.before q = true ↔
      p.line < q.line ∨ p.line = q.line ∧ p.column < q.column := by
  simp [before]

/- A position is at most another one. -/
theorem atMost_iff :
    p.atMost q = true ↔
      p.line < q.line ∨ p.line = q.line ∧ p.column ≤ q.column := by
  unfold atMost
  rw [Bool.not_eq_true', Bool.eq_false_iff, Ne, before_iff]
  omega

theorem atMost_refl
    (p : Position) :
    p.atMost p = true := by
  rw [atMost_iff]
  omega

theorem atMost_trans
    {r : Position}
    (hpq : p.atMost q = true)
    (hqr : q.atMost r = true) :
    p.atMost r = true := by
  rw [atMost_iff] at *
  omega

/- Of two places one is at most the other. -/
theorem atMost_total
    (p q : Position) :
    p.atMost q = true ∨ q.atMost p = true := by
  rw [atMost_iff, atMost_iff]
  omega

theorem eq_of_atMost
    (hpq : p.atMost q = true)
    (hqp : q.atMost p = true) :
    p = q := by
  rw [atMost_iff] at *
  cases p
  cases q
  simp only [Position.mk.injEq] at *
  omega

/- What comes before is at most as far. -/
theorem atMost_of_before
    (hBefore : p.before q = true) :
    p.atMost q = true := by
  rw [before_iff] at hBefore
  rw [atMost_iff]
  omega

/- A place that is at most another one comes before or is it. -/
theorem before_or_eq
    (hLe : p.atMost q = true) :
    p.before q = true ∨ p = q := by
  by_cases hBefore : p.before q = true
  · exact .inl hBefore
  · refine .inr (eq_of_atMost hLe ?_)
    unfold atMost
    rw [Bool.not_eq_true', Bool.eq_false_iff]
    exact hBefore

/- A place that is at most as far leaves the other the greater. -/
theorem greatest_eq
    (hLe : p.atMost q = true) :
    p.greatest q = q := by
  unfold greatest
  rcases before_or_eq hLe with hBefore | rfl
  · rw [if_pos hBefore]
  · split <;> rfl

/- The lesser of two places is one of them, and at most both. -/
theorem least_spec
    (p q : Position) :
    (p.least q = p ∨ p.least q = q) ∧
      (p.least q).atMost p = true ∧ (p.least q).atMost q = true := by
  unfold least
  split
  · rename_i hBefore
    exact ⟨.inr rfl, atMost_of_before hBefore, atMost_refl q⟩
  · rename_i hNot
    refine ⟨.inl rfl, atMost_refl p, ?_⟩
    rw [before_iff] at hNot
    rw [atMost_iff]
    omega

/- The greater of two places is one of them, and at least both. -/
theorem greatest_spec
    (p q : Position) :
    (p.greatest q = p ∨ p.greatest q = q) ∧
      p.atMost (p.greatest q) = true ∧
      q.atMost (p.greatest q) = true := by
  unfold greatest
  split
  · rename_i hBefore
    exact ⟨.inr rfl, atMost_of_before hBefore, atMost_refl q⟩
  · rename_i hNot
    refine ⟨.inl rfl, atMost_refl p, ?_⟩
    rw [before_iff] at hNot
    rw [atMost_iff]
    omega

end Position

end Whittle

------------------------------------------------------------
-- Hulls
------------------------------------------------------------

namespace Whittle

namespace Span

/-
  A span is the hull of some spans: it begins where the first
  of them does, and ends where the last of them does.
-/
structure IsHull
    (s : Span)
    (spans : Span → Prop) : Prop where
  begins : ∃ r, spans r ∧ r.first = s.first
  ends : ∃ r, spans r ∧ r.last = s.last
  least : ∀ r, spans r → s.first.atMost r.first = true
  greatest : ∀ r, spans r → r.last.atMost s.last = true

variable {s r : Span} {A B : Span → Prop}

theorem isHull_self
    (s : Span) :
    s.IsHull (s = ·) where
  begins := ⟨s, rfl, rfl⟩
  ends := ⟨s, rfl, rfl⟩
  least := by
    rintro _ rfl
    exact Position.atMost_refl _
  greatest := by
    rintro _ rfl
    exact Position.atMost_refl _

theorem IsHull.eq_self
    (hHull : s.IsHull (r = ·)) :
    s = r := by
  obtain ⟨_, rfl, hBegin⟩ := hHull.begins
  obtain ⟨_, rfl, hEnd⟩ := hHull.ends
  cases s
  cases r
  cases hBegin
  cases hEnd
  rfl

theorem IsHull.congr
    (hHull : s.IsHull A)
    (hSame : ∀ r, A r ↔ B r) :
    s.IsHull B := by
  have hEq : A = B := funext fun r => propext (hSame r)
  rwa [← hEq]

/- The hull of two hulls is that of all their spans. -/
theorem IsHull.hull
    (hs : s.IsHull A)
    (hr : r.IsHull B) :
    (s.hull r).IsHull fun q => A q ∨ B q := by
  obtain ⟨hFirst, hFirst_s, hFirst_r⟩ :=
    Position.least_spec s.first r.first
  obtain ⟨hLast, hLast_s, hLast_r⟩ :=
    Position.greatest_spec s.last r.last
  unfold Span.hull
  refine
    { begins := ?_
      ends := ?_
      least := ?_
      greatest := ?_ }
  · rcases hFirst with hSame | hSame
    · obtain ⟨q, hq, hBegin⟩ := hs.begins
      exact ⟨q, .inl hq, hBegin.trans hSame.symm⟩
    · obtain ⟨q, hq, hBegin⟩ := hr.begins
      exact ⟨q, .inr hq, hBegin.trans hSame.symm⟩
  · rcases hLast with hSame | hSame
    · obtain ⟨q, hq, hEnd⟩ := hs.ends
      exact ⟨q, .inl hq, hEnd.trans hSame.symm⟩
    · obtain ⟨q, hq, hEnd⟩ := hr.ends
      exact ⟨q, .inr hq, hEnd.trans hSame.symm⟩
  · rintro q (hq | hq)
    · exact Position.atMost_trans hFirst_s (hs.least q hq)
    · exact Position.atMost_trans hFirst_r (hr.least q hq)
  · rintro q (hq | hq)
    · exact Position.atMost_trans (hs.greatest q hq) hLast_s
    · exact Position.atMost_trans (hr.greatest q hq) hLast_r

/- Hulls one after the other are taken in. -/
theorem isHull_foldl
    {ι : Type}
    {span : ι → Span}
    {below : ι → Span → Prop}
    (is : List ι)
    (hEach : ∀ i ∈ is, (span i).IsHull (below i))
    (hs : s.IsHull A) :
    (is.foldl (fun s i => s.hull (span i)) s).IsHull
      fun q => A q ∨ ∃ i ∈ is, below i q := by
  induction is generalizing s A with
  | nil => exact hs.congr (by simp)
  | cons i rest ih =>
      have hFirst := hEach i List.mem_cons_self
      have hRest : ∀ j ∈ rest, (span j).IsHull (below j) :=
        fun j hj => hEach j (List.mem_cons_of_mem i hj)
      refine (ih hRest (hs.hull hFirst)).congr ?_
      simp [or_assoc]

/- A hull of fewer spans lies in a hull of more. -/
theorem IsHull.isInside
    (hs : s.IsHull A)
    (hr : r.IsHull B)
    (hFewer : ∀ q, B q → A q) :
    s.first.atMost r.first = true ∧ r.last.atMost s.last = true := by
  obtain ⟨q, hq, hBegin⟩ := hr.begins
  obtain ⟨q', hq', hEnd⟩ := hr.ends
  rw [← hBegin, ← hEnd]
  exact ⟨hs.least q (hFewer q hq), hs.greatest q' (hFewer q' hq')⟩

/-
  A hull is also that of the hulls of parts, if each part
  belongs to it and each of its spans to a part.
-/
theorem IsHull.of_parts
    {parts : Span → Prop}
    (hs : s.IsHull A)
    (hPart : ∀ r, parts r → ∃ B, r.IsHull B ∧ ∀ q, B q → A q)
    (hAll : ∀ q, A q → ∃ r B, parts r ∧ r.IsHull B ∧ B q) :
    s.IsHull parts where
  begins := by
    obtain ⟨q, hq, hBegin⟩ := hs.begins
    obtain ⟨r, B, hr, hHull, hB⟩ := hAll q hq
    obtain ⟨B', hHull', hFewer⟩ := hPart r hr
    refine ⟨r, hr, Position.eq_of_atMost ?_ ?_⟩
    · rw [← hBegin]
      exact hHull.least q hB
    · exact (hs.isInside hHull' hFewer).1
  ends := by
    obtain ⟨q, hq, hEnd⟩ := hs.ends
    obtain ⟨r, B, hr, hHull, hB⟩ := hAll q hq
    obtain ⟨B', hHull', hFewer⟩ := hPart r hr
    refine ⟨r, hr, Position.eq_of_atMost ?_ ?_⟩
    · exact (hs.isInside hHull' hFewer).2
    · rw [← hEnd]
      exact hHull.greatest q hB
  least r hr := by
    obtain ⟨B, hHull, hFewer⟩ := hPart r hr
    exact (hs.isInside hHull hFewer).1
  greatest r hr := by
    obtain ⟨B, hHull, hFewer⟩ := hPart r hr
    exact (hs.isInside hHull hFewer).2

end Span

end Whittle
