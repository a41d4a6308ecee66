import Mathlib.Data.List.Forall2
import Whittle.Proofs.Server.Frames
import Whittle.Query.Reader

/-
  The conditions that stand between brackets in a query.

  Key definitions include:
    * `Text.IsBlank`
    * `Text.Spells`
    * `Condition.Writes`

  Main statements:
    * `isBlank_eq_false_of_digitValue?`
    * `Text.digits?_eq_some_iff`
    * `Text.digits?_strip_eq_some_iff`
    * `readImage?_eq_some_iff`
    * `readCondition_eq_some_iff`

  A condition is an image or a position, up to white space.
  No text is both, for the at sign is neither a digit nor
  white space.
-/

------------------------------------------------------------
-- Blanks And Digits
------------------------------------------------------------

namespace Whittle

namespace Text

/- The text holds white space only. -/
def IsBlank
    (t : Text) : Prop :=
  ∀ c ∈ t, isBlank c = true

/- The digits of the text have these values. -/
def Spells
    (t : Text)
    (ds : List Nat) : Prop :=
  List.Forall₂ (fun c d => digitValue? c = some d) t ds

end Text

variable {c : Char}

/- A digit belongs to one of the scripts. -/
theorem exists_zeroDigit
    {d : Nat}
    (hValue : digitValue? c = some d) :
    ∃ z ∈ zeroDigits, z ≤ c.toNat ∧ c.toNat ≤ z + 9 := by
  rcases Option.map_eq_some_iff.mp hValue with ⟨z, hFind, -⟩
  have hHolds := List.find?_some hFind
  simp only [Bool.and_eq_true, decide_eq_true_eq] at hHolds
  exact ⟨z, List.mem_of_find?_eq_some hFind, hHolds⟩

/- No digit of any script is white space. -/
theorem isBlank_eq_false_of_digitValue?
    {d : Nat}
    (hValue : digitValue? c = some d) :
    isBlank c = false := by
  -- Where the scripts lie, seen from the blanks.
  have hApart : ∀ z ∈ zeroDigits,
      (z = 0x30 ∨ 0x660 ≤ z) ∧
        (z + 9 < 0x1680 ∨ 0x1680 < z) ∧
        (z + 9 < 0x2000 ∨ 0x3000 < z) := by
    decide
  rcases exists_zeroDigit hValue with ⟨z, hMem, hFrom, hTo⟩
  rcases hApart z hMem with ⟨hLow, hOgham, hHigh⟩
  simp only [isBlank, Bool.or_eq_false_iff, Bool.and_eq_false_iff,
    decide_eq_false_iff_not]
  omega

namespace Text

variable {t digits before after : Text} {ds : List Nat}

theorem Spells.length_eq
    (hSpells : t.Spells ds) :
    t.length = ds.length :=
  List.Forall₂.length_eq hSpells

/- Each character of a spelled number is a digit. -/
theorem Spells.exists_digitValue?
    (hSpells : t.Spells ds)
    (hc : c ∈ t) :
    ∃ d, digitValue? c = some d := by
  induction hSpells with
  | nil => exact absurd hc List.not_mem_nil
  | cons hValue _ ih =>
      rcases List.mem_cons.mp hc with rfl | hc
      · exact ⟨_, hValue⟩
      · exact ih hc

/- The values of digits are read one by one. -/
theorem mapM_digitValue?_eq_some_iff :
    t.mapM digitValue? = some ds ↔ t.Spells ds := by
  induction t generalizing ds with
  | nil => simp [Spells, eq_comm]
  | cons c rest ih =>
      simp only [List.mapM_cons, Option.bind_eq_bind,
        Option.bind_eq_some_iff, Option.pure_def, Option.some.injEq]
      constructor
      · rintro ⟨d, hValue, more, hMore, rfl⟩
        exact .cons hValue (ih.mp hMore)
      · intro hSpells
        cases hSpells with
        | cons hValue hMore =>
            exact ⟨_, hValue, _, ih.mpr hMore, rfl⟩

/- A number has at least one digit, and nothing else. -/
theorem digits?_eq_some_iff :
    digits? t = some ds ↔ t ≠ [] ∧ t.Spells ds := by
  unfold digits?
  cases t with
  | nil => simp
  | cons c rest =>
      rw [if_neg (by simp), mapM_digitValue?_eq_some_iff]
      exact (and_iff_right (List.cons_ne_nil c rest)).symm

/- White space stands on both sides of the stripped text. -/
theorem exists_strip
    (t : Text) :
    ∃ before after, IsBlank before ∧ IsBlank after ∧
      t = before ++ (strip t ++ after) := by
  have hTake : ∀ s : Text, IsBlank (s.takeWhile isBlank) :=
    fun s c hc => List.all_eq_true.mp List.all_takeWhile c hc
  refine ⟨t.takeWhile isBlank,
    ((t.dropWhile isBlank).reverse.takeWhile isBlank).reverse,
    hTake t, fun c hc => hTake _ c (List.mem_reverse.mp hc), ?_⟩
  rw [strip, trimWhere, ← List.reverse_append,
    List.takeWhile_append_dropWhile, List.reverse_reverse,
    List.takeWhile_append_dropWhile]

/- The stripped text is a part of the text. -/
theorem strip_isInfix
    (t : Text) :
    strip t <:+: t := by
  rcases exists_strip t with ⟨before, after, -, -, hText⟩
  exact ⟨before, after, by rw [List.append_assoc, ← hText]⟩

theorem dropWhile_isBlank_append
    (hBefore : IsBlank before)
    (hVisible : isBlank c = false) :
    (before ++ c :: after).dropWhile isBlank = c :: after := by
  rw [List.dropWhile_append_of_pos hBefore]
  exact List.dropWhile_cons_of_neg (by simp [hVisible])

/- What `dropWhile` leaves follows white space. -/
theorem exists_of_dropWhile_isBlank
    (hDrop : t.dropWhile isBlank = after) :
    ∃ before, IsBlank before ∧ t = before ++ after :=
  ⟨t.takeWhile isBlank,
    fun c hc => List.all_eq_true.mp List.all_takeWhile c hc,
    by rw [← hDrop, List.takeWhile_append_dropWhile]⟩

theorem strip_append
    (hBefore : IsBlank before)
    (hAfter : IsBlank after)
    (hVisible : ∀ c ∈ t, isBlank c = false) :
    strip (before ++ (t ++ after)) = t := by
  cases t with
  | nil =>
      have hAll : IsBlank (before ++ after) :=
        List.forall_mem_append.mpr ⟨hBefore, hAfter⟩
      rw [strip, trimWhere, List.nil_append,
        List.dropWhile_eq_nil_iff.mpr hAll]
      rfl
  | cons c rest =>
      have hLast : trimWhere isBlank (c :: rest) = c :: rest :=
        trimWhere_of_all hVisible
      have hDrop : (c :: rest).dropWhile isBlank = c :: rest :=
        List.dropWhile_cons_of_neg
          (by simp [hVisible c List.mem_cons_self])
      rw [trimWhere, hDrop] at hLast
      rw [strip, trimWhere, List.cons_append,
        dropWhile_isBlank_append hBefore
          (hVisible c List.mem_cons_self),
        ← List.cons_append, List.reverse_append,
        List.dropWhile_append_of_pos
          (fun d hd => hAfter d (List.mem_reverse.mp hd)),
        hLast]

/- A number is found by stripping the white space around it. -/
theorem digits?_strip_eq_some_iff :
    digits? (strip t) = some ds ↔
      ∃ before digits after, IsBlank before ∧ IsBlank after ∧
        digits ≠ [] ∧ Spells digits ds ∧
        t = before ++ (digits ++ after) := by
  rw [digits?_eq_some_iff]
  constructor
  · rintro ⟨hSome, hSpells⟩
    rcases exists_strip t with
      ⟨before, after, hBefore, hAfter, hText⟩
    exact ⟨before, strip t, after, hBefore, hAfter, hSome, hSpells,
      hText⟩
  · rintro ⟨before, digits, after, hBefore, hAfter, hSome, hSpells,
      rfl⟩
    have hVisible : ∀ c ∈ digits, isBlank c = false := by
      intro c hc
      rcases hSpells.exists_digitValue? hc with ⟨d, hValue⟩
      exact isBlank_eq_false_of_digitValue? hValue
    rw [strip_append hBefore hAfter hVisible]
    exact ⟨hSome, hSpells⟩

end Text

end Whittle

------------------------------------------------------------
-- Conditions
------------------------------------------------------------

namespace Whittle

open Text

namespace Condition

/-
  The text writes the condition: an image between two quotes
  of one kind that the image does not hold, or a number.
  White space may stand around each part.
-/
inductive Writes : Text → Condition → Prop where
| image
    {before gap gap' text after : Text}
    {mark : Char}
    (hBefore : IsBlank before)
    (hGap : IsBlank gap)
    (hGap' : IsBlank gap')
    (hAfter : IsBlank after)
    (hMark : mark = '\'' ∨ mark = '"')
    (hText : mark ∉ text) :
    Writes
      (before ++ ("@Image".toList ++ (gap ++ '=' ::
        (gap' ++ mark :: (text ++ mark :: after)))))
      (.image (String.ofList text))
| position
    {before digits after : Text}
    {ds : List Nat}
    (hBefore : IsBlank before)
    (hAfter : IsBlank after)
    (hSome : digits ≠ [])
    (hSpells : digits.Spells ds) :
    Writes (before ++ (digits ++ after)) (.position ds)

end Condition

variable {raw rest text after start : Text} {mark : Char}

/- What follows the start of a text. -/
theorem dropStart?_eq_some_iff :
    dropStart? start rest = some after ↔ rest = start ++ after := by
  unfold dropStart?
  dsimp only
  constructor
  · intro hDrop
    split at hDrop
    · rename_i hPrefix
      rcases List.isPrefixOf_iff_prefix.mp hPrefix with ⟨s, rfl⟩
      rw [List.drop_left, Option.some.injEq] at hDrop
      rw [hDrop]
    · exact absurd hDrop (by simp)
  · rintro rfl
    rw [if_pos (List.isPrefixOf_iff_prefix.mpr
      (List.prefix_append start after)), List.drop_left]

/- A quoted text ends at the first mark of its kind. -/
theorem readQuoted?_eq_some_iff :
    readQuoted? mark rest = some text ↔
      ∃ after, IsBlank after ∧ mark ∉ text ∧
        rest = text ++ mark :: after := by
  induction rest generalizing text with
  | nil => simp [readQuoted?]
  | cons c rest ih =>
      unfold readQuoted?
      by_cases hMark : c = mark
      · rw [if_pos hMark]
        constructor
        · intro hRead
          split at hRead
          · rename_i hAll
            cases hRead
            exact ⟨rest, List.all_eq_true.mp hAll, List.not_mem_nil,
              by rw [hMark]; rfl⟩
          · exact absurd hRead (by simp)
        · rintro ⟨after, hAfter, hNot, hText⟩
          cases text with
          | nil =>
              cases hText
              rw [if_pos (List.all_eq_true.mpr hAfter)]
          | cons d more =>
              cases hText
              exact absurd (hMark ▸ List.mem_cons_self) hNot
      · rw [if_neg hMark]
        constructor
        · intro hRead
          rcases Option.map_eq_some_iff.mp hRead with
            ⟨more, hMore, rfl⟩
          rcases ih.mp hMore with ⟨after, hAfter, hNot, rfl⟩
          exact ⟨after, hAfter,
            fun hMem => (List.mem_cons.mp hMem).elim
              (fun hEq => hMark hEq.symm) hNot, rfl⟩
        · rintro ⟨after, hAfter, hNot, hText⟩
          cases text with
          | nil => cases hText; exact absurd rfl hMark
          | cons d more =>
              cases hText
              rw [ih.mpr ⟨after, hAfter,
                fun hMem => hNot (List.mem_cons_of_mem _ hMem), rfl⟩]
              rfl

/- An image is read from just the texts that write it. -/
theorem readImage?_eq_some_iff :
    readImage? raw = some text ↔
      Condition.Writes raw (.image (String.ofList text)) := by
  constructor
  · intro hRead
    unfold readImage? at hRead
    dsimp only at hRead
    split at hRead
    · exact absurd hRead (by simp)
    · rename_i hStart
      rw [dropStart?_eq_some_iff] at hStart
      rcases exists_of_dropWhile_isBlank hStart with
        ⟨before, hBefore, rfl⟩
      split at hRead
      · rename_i value hEquals
        rcases exists_of_dropWhile_isBlank hEquals with
          ⟨gap, hGap, rfl⟩
        split at hRead
        all_goals
          first
          | exact absurd hRead (by simp)
          | rename_i hQuote
            rcases exists_of_dropWhile_isBlank hQuote with
              ⟨gap', hGap', rfl⟩
            rcases readQuoted?_eq_some_iff.mp hRead with
              ⟨after, hAfter, hNot, rfl⟩
            exact .image hBefore hGap hGap' hAfter (by simp) hNot
      · exact absurd hRead (by simp)
  · intro hWrites
    generalize hCondition : Condition.image (String.ofList text) = c
      at hWrites
    cases hWrites with
    | position => cases hCondition
    | @image before gap gap' text' after mark hBefore hGap hGap' hAfter
        hMark hText =>
        have hSame : text = text' :=
          String.ofList_injective (Condition.image.inj hCondition)
        subst hSame
        have hStart : dropStart? "@Image".toList
            ((before ++ ("@Image".toList ++ (gap ++ '=' ::
              (gap' ++ mark :: (text ++ mark :: after))))).dropWhile
                isBlank) =
            some (gap ++ '=' ::
              (gap' ++ mark :: (text ++ mark :: after))) := by
          rw [dropStart?_eq_some_iff]
          exact dropWhile_isBlank_append hBefore (by decide)
        have hQuoted : readQuoted? mark (text ++ mark :: after) =
            some text :=
          readQuoted?_eq_some_iff.mpr ⟨after, hAfter, hText, rfl⟩
        have hVisible : isBlank mark = false := by
          rcases hMark with rfl | rfl <;> decide
        unfold readImage?
        dsimp only
        rw [hStart]
        dsimp only
        rw [dropWhile_isBlank_append hGap (by decide)]
        simp only [dropWhile_isBlank_append hGap' hVisible]
        rcases hMark with rfl | rfl
        · exact hQuoted
        · exact hQuoted

theorem not_writes_image_of_position
    {ds : List Nat}
    {image : String}
    (hPosition : Condition.Writes raw (.position ds)) :
    ¬ Condition.Writes raw (.image image) := by
  have hNot : '@' ∉ raw := by
    cases hPosition with
    | position hBefore hAfter hSome hSpells =>
        intro hMem
        rcases List.mem_append.mp hMem with hMem | hMem
        · exact absurd (hBefore _ hMem) (by decide)
        · rcases List.mem_append.mp hMem with hMem | hMem
          · rcases hSpells.exists_digitValue? hMem with ⟨d, hValue⟩
            exact absurd hValue (by
              rw [show digitValue? '@' = none by decide]
              simp)
          · exact absurd (hAfter _ hMem) (by decide)
  intro hImage
  cases hImage with
  | image =>
      exact hNot (List.mem_append_right _ List.mem_cons_self)

/- A condition is read from just the texts that write it. -/
theorem readCondition_eq_some_iff
    {condition : Condition} :
    readCondition raw = some condition ↔
      Condition.Writes raw condition := by
  have hPosition : ∀ ds,
      digits? (strip raw) = some ds ↔
        Condition.Writes raw (.position ds) := by
    intro ds
    rw [digits?_strip_eq_some_iff]
    constructor
    · rintro ⟨before, digits, after, hBefore, hAfter, hSome, hSpells,
        rfl⟩
      exact .position hBefore hAfter hSome hSpells
    · intro hWrites
      cases hWrites with
      | position hBefore hAfter hSome hSpells =>
          exact ⟨_, _, _, hBefore, hAfter, hSome, hSpells, rfl⟩
  unfold readCondition
  cases hImage : readImage? raw with
  | some text =>
      have hWrites := readImage?_eq_some_iff.mp hImage
      cases condition with
      | image image =>
          dsimp only
          rw [Option.some.injEq]
          constructor
          · intro hEq
            exact hEq ▸ hWrites
          · intro hOther
            have hAgain := readImage?_eq_some_iff.mpr
              (String.ofList_toList ▸ hOther :
                Condition.Writes raw
                  (.image (String.ofList image.toList)))
            rw [hImage, Option.some.injEq] at hAgain
            rw [hAgain, String.ofList_toList]
      | position ds =>
          exact ⟨fun h => absurd h (by simp),
            fun h => absurd hWrites (not_writes_image_of_position h)⟩
  | none =>
      dsimp only
      rw [Option.map_eq_some_iff]
      constructor
      · rintro ⟨ds, hDigits, rfl⟩
        exact (hPosition ds).mp hDigits
      · intro hWrites
        cases condition with
        | position ds => exact ⟨ds, (hPosition ds).mpr hWrites, rfl⟩
        | image image =>
            rw [← String.ofList_toList (s := image)] at hWrites
            rw [readImage?_eq_some_iff.mpr hWrites] at hImage
            exact absurd hImage (by simp)

end Whittle
