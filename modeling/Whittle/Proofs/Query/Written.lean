import Whittle.Proofs.Query.Condition

/-
  Steps as they stand in an expression.

  Key definitions include:
    * `RawStep.IsName`
    * `RawStep.IsWellFormed`
    * `RawStep.write`
    * `Text.IsWritten`

  Main statements:
    * `readGroup?_eq_some_iff`
    * `readStep?_write`
    * `of_readStep?`
    * `RawStep.eq_of_flatMap_write`

  A step starts with an axis, and an axis neither starts a
  name nor goes on with one.  So where a step ends is decided
  by the text alone, and a text is cut into steps in one way.
-/

------------------------------------------------------------
-- Writing Steps
------------------------------------------------------------

namespace Whittle

/- An identifier of ASCII letters, digits and underscores. -/
def IsName
    (t : Text) : Prop :=
  ∃ c rest, t = c :: rest ∧
    isWordChar c = true ∧ c.isDigit = false ∧
    ∀ d ∈ rest, isWordChar d = true

/- The name that stands for a kind. -/
def nameOfKind : Option String → Text
  | none => ['*']
  | some kind => kind.toList

/- A text between brackets. -/
def bracketed
    (inside : Text) : Text :=
  '[' :: (inside ++ [']'])

namespace RawStep

/- A step that the grammar knows: its name and its brackets. -/
structure IsWellFormed
    (raw : RawStep) : Prop where
  isName : ∀ kind, raw.kind = some kind → IsName kind.toList
  isInside : ∀ inside ∈ raw.conditions, ']' ∉ inside

/- The text of a step: axis, name and bracket groups. -/
def write
    (raw : RawStep) : Text :=
  (if raw.descends then ['/', '/'] else ['/']) ++
    (nameOfKind raw.kind ++ raw.conditions.flatMap bracketed)

end RawStep

/- The text is a sequence of steps of the grammar. -/
structure Text.IsWritten
    (t : Text)
    (raws : List RawStep) : Prop where
  isSome : raws ≠ []
  areWellFormed : ∀ raw ∈ raws, raw.IsWellFormed
  eq : t = raws.flatMap RawStep.write

end Whittle

------------------------------------------------------------
-- Bracket Groups
------------------------------------------------------------

namespace Whittle

variable {rest inside last after : Text} {conditions : List Text}

/- A group ends at the first closing bracket. -/
theorem readGroup?_eq_some_iff :
    readGroup? rest = some (inside, after) ↔
      ']' ∉ inside ∧ rest = bracketed inside ++ after := by
  constructor
  · intro hRead
    unfold readGroup? at hRead
    split at hRead
    · rename_i inner
      split at hRead
      · rename_i hDrop
        cases hRead
        constructor
        · intro hMem
          have hNot := List.all_eq_true.mp List.all_takeWhile _ hMem
          exact absurd hNot (by simp)
        · rw [bracketed, List.cons_append, List.append_assoc,
            List.singleton_append, ← hDrop,
            List.takeWhile_append_dropWhile]
      · exact absurd hRead (by simp)
    · exact absurd hRead (by simp)
  · rintro ⟨hNot, rfl⟩
    have hAll : ∀ c ∈ inside, decide (c ≠ ']') = true := by
      intro c hc
      exact decide_eq_true fun hEq => hNot (hEq ▸ hc)
    have hTake : (inside ++ ']' :: after).takeWhile (· ≠ ']') =
        inside := by
      rw [List.takeWhile_append_of_pos hAll,
        List.takeWhile_cons_of_neg (by simp), List.append_nil]
    have hDrop : (inside ++ ']' :: after).dropWhile (· ≠ ']') =
        ']' :: after := by
      rw [List.dropWhile_append_of_pos hAll,
        List.dropWhile_cons_of_neg (by simp)]
    have hText : bracketed inside ++ after =
        '[' :: (inside ++ ']' :: after) := by
      simp [bracketed]
    rw [hText, readGroup?, hDrop, hTake]
    rfl

/- Groups are read one after the other, none being left out. -/
theorem of_readGroups
    {fuel : Nat}
    (hRead : readGroups fuel rest = (conditions, last)) :
    (∀ inside ∈ conditions, ']' ∉ inside) ∧
      rest = conditions.flatMap bracketed ++ last := by
  induction fuel generalizing rest conditions with
  | zero =>
      cases hRead
      exact ⟨fun _ h => absurd h List.not_mem_nil, rfl⟩
  | succ fuel ih =>
      unfold readGroups at hRead
      split at hRead
      · cases hRead
        exact ⟨fun _ h => absurd h List.not_mem_nil, rfl⟩
      · rename_i inside after hGroup
        rcases readGroup?_eq_some_iff.mp hGroup with ⟨hNot, rfl⟩
        cases hRead
        rcases ih rfl with ⟨hInside, hRest⟩
        exact ⟨List.forall_mem_cons.mpr ⟨hNot, hInside⟩,
          by rw [List.flatMap_cons, List.append_assoc, ← hRest]⟩

theorem readGroups_append
    {fuel : Nat}
    (hInside : ∀ inside ∈ conditions, ']' ∉ inside)
    (hLast : readGroup? last = none)
    (hFuel : conditions.length ≤ fuel) :
    readGroups fuel (conditions.flatMap bracketed ++ last) =
      (conditions, last) := by
  induction conditions generalizing fuel with
  | nil =>
      cases fuel with
      | zero => rfl
      | succ fuel =>
          rw [List.flatMap_nil, List.nil_append, readGroups, hLast]
  | cons inside more ih =>
      rw [List.forall_mem_cons] at hInside
      cases fuel with
      | zero => exact absurd hFuel (by simp)
      | succ fuel =>
          have hGroup : readGroup?
              ((inside :: more).flatMap bracketed ++ last) =
              some (inside, more.flatMap bracketed ++ last) :=
            readGroup?_eq_some_iff.mpr ⟨hInside.1,
              by rw [List.flatMap_cons, List.append_assoc]⟩
          rw [readGroups, hGroup]
          dsimp only
          rw [ih hInside.2 (Nat.le_of_succ_le_succ hFuel)]

theorem length_le_of_bracketed
    (conditions : List Text) :
    conditions.length ≤ (conditions.flatMap bracketed).length := by
  induction conditions with
  | nil => exact Nat.le_refl 0
  | cons inside more ih =>
      rw [List.flatMap_cons, List.length_append, List.length_cons,
        bracketed, List.length_cons]
      omega

end Whittle

------------------------------------------------------------
-- Names
------------------------------------------------------------

namespace Whittle

variable {rest last after : Text} {kind : Option String}

/- A name is read from its start. -/
theorem of_readKind?
    (hRead : readKind? rest = some (kind, after)) :
    (∀ k, kind = some k → IsName k.toList) ∧
      rest = nameOfKind kind ++ after := by
  unfold readKind? at hRead
  split at hRead
  · cases hRead
    exact ⟨fun _ h => absurd h (by simp), rfl⟩
  · rename_i c more hStar
    split at hRead
    · rename_i hStart
      simp only [Bool.and_eq_true, Bool.not_eq_true'] at hStart
      cases hRead
      constructor
      · rintro k hKind
        cases hKind
        rw [String.toList_ofList, List.takeWhile_cons_of_pos hStart.1]
        exact ⟨c, more.takeWhile isWordChar, rfl, hStart.1, hStart.2,
          List.all_eq_true.mp List.all_takeWhile⟩
      · rw [nameOfKind, String.toList_ofList,
          List.takeWhile_append_dropWhile]
    · exact absurd hRead (by simp)
  · exact absurd hRead (by simp)

theorem readKind?_append
    (hName : ∀ k, kind = some k → IsName k.toList)
    (hLast : ∀ c, last.head? = some c → isWordChar c = false) :
    readKind? (nameOfKind kind ++ last) = some (kind, last) := by
  cases kind with
  | none => rfl
  | some k =>
      rcases hName k rfl with ⟨c, more, hText, hStart, hDigit, hMore⟩
      have hAll : ∀ d ∈ k.toList, isWordChar d = true := by
        rw [hText]
        exact List.forall_mem_cons.mpr ⟨hStart, hMore⟩
      have hTake : last.takeWhile isWordChar = [] ∧
          last.dropWhile isWordChar = last := by
        cases last with
        | nil => exact ⟨rfl, rfl⟩
        | cons d others =>
            have hNot := hLast d rfl
            exact ⟨List.takeWhile_cons_of_neg (by simp [hNot]),
              List.dropWhile_cons_of_neg (by simp [hNot])⟩
      have hName : (k.toList ++ last).takeWhile isWordChar =
          k.toList := by
        rw [List.takeWhile_append_of_pos hAll, hTake.1,
          List.append_nil]
      have hRest : (k.toList ++ last).dropWhile isWordChar = last := by
        rw [List.dropWhile_append_of_pos hAll, hTake.2]
      rw [nameOfKind]
      unfold readKind?
      split
      · rename_i hStar
        rw [hText] at hStar
        cases hStar
        exact absurd hStart (by decide)
      · rename_i d others hStar hCons
        have hHead : c = d := by
          rw [hText] at hCons
          exact (List.cons.inj hCons).1
        subst hHead
        rw [if_pos (by simp [hStart, hDigit]), hName, hRest,
          String.ofList_toList]
      · rename_i hNil
        rw [hText] at hNil
        exact absurd hNil (by simp)

/- No name starts with a slash. -/
theorem exists_nameOfKind
    (hName : ∀ k, kind = some k → IsName k.toList) :
    ∃ c more, nameOfKind kind = c :: more ∧ c ≠ '/' := by
  cases kind with
  | none => exact ⟨'*', [], rfl, by decide⟩
  | some k =>
      rcases hName k rfl with ⟨c, more, hText, hStart, -, -⟩
      refine ⟨c, more, hText, ?_⟩
      rintro rfl
      exact absurd hStart (by decide)

end Whittle

------------------------------------------------------------
-- Steps
------------------------------------------------------------

namespace Whittle

variable {rest last : Text} {raw : RawStep} {raws raws' : List RawStep}

/- What is read as a step is the text of that step. -/
theorem of_readStep?
    (hRead : readStep? rest = some (raw, last)) :
    raw.IsWellFormed ∧ rest = raw.write ++ last := by
  unfold readStep? at hRead
  dsimp only at hRead
  split at hRead
  · exact absurd hRead (by simp)
  · rename_i descends after hAxis
    have hText : rest =
        (if descends then ['/', '/'] else ['/']) ++ after := by
      split at hAxis
      · cases hAxis; rfl
      · cases hAxis; rfl
      · exact absurd hAxis (by simp)
    split at hRead
    · exact absurd hRead (by simp)
    · rename_i kind tail hKind
      rcases of_readKind? hKind with ⟨hName, hAfter⟩
      cases hGroups : readGroups tail.length tail with
      | mk conditions last' =>
          rw [hGroups] at hRead
          cases hRead
          rcases of_readGroups hGroups with ⟨hInside, hTail⟩
          exact ⟨⟨hName, hInside⟩, by
            rw [hText, hAfter, hTail, RawStep.write, List.append_assoc,
              List.append_assoc]⟩

/- A step is read up to the axis of the next one. -/
theorem readStep?_write
    (hWell : raw.IsWellFormed)
    (hLast : ∀ c, last.head? = some c → c = '/') :
    readStep? (raw.write ++ last) = some (raw, last) := by
  have hGroup : readGroup? last = none := by
    cases last with
    | nil => rfl
    | cons c more =>
        rw [hLast c rfl]
        rfl
  have hName : ∀ c,
      (raw.conditions.flatMap bracketed ++ last).head? = some c →
        isWordChar c = false := by
    intro c hHead
    cases hConditions : raw.conditions with
    | nil =>
        rw [hConditions] at hHead
        rw [hLast c hHead]
        decide
    | cons inside more =>
        rw [hConditions] at hHead
        cases hHead
        decide
  have hKind := readKind?_append hWell.isName hName
  have hFuel : raw.conditions.length ≤
      (raw.conditions.flatMap bracketed ++ last).length := by
    rw [List.length_append]
    exact Nat.le_add_right_of_le (length_le_of_bracketed _)
  have hGroups := readGroups_append hWell.isInside hGroup hFuel
  have hText : raw.write ++ last =
      (if raw.descends then ['/', '/'] else ['/']) ++
        (nameOfKind raw.kind ++
          (raw.conditions.flatMap bracketed ++ last)) := by
    simp [RawStep.write]
  rcases exists_nameOfKind hWell.isName with ⟨c, more, hStart, hSlash⟩
  rw [hText]
  generalize raw.conditions.flatMap bracketed ++ last = tail
    at hKind hGroups
  rcases raw with ⟨descends, kind, conditions⟩
  cases descends with
  | true =>
      simp only [readStep?, if_true, List.cons_append,
        List.nil_append, hKind, hGroups]
  | false =>
      -- The name keeps the one slash from being read as two.
      rw [hStart] at hKind ⊢
      simp only [List.cons_append] at hKind
      simp [readStep?, hSlash, hKind, hGroups]

/- What follows a step is nothing or starts with a slash. -/
theorem head?_flatMap_write
    (raws : List RawStep)
    {c : Char}
    (hHead : (raws.flatMap RawStep.write).head? = some c) :
    c = '/' := by
  cases raws with
  | nil => exact absurd hHead (by simp)
  | cons raw more =>
      rw [List.flatMap_cons, RawStep.write] at hHead
      split at hHead
      · cases hHead; rfl
      · cases hHead; rfl

theorem RawStep.eq_of_flatMap_write
    (hWell : ∀ raw ∈ raws, raw.IsWellFormed)
    (hWell' : ∀ raw ∈ raws', raw.IsWellFormed)
    (hText : raws.flatMap write = raws'.flatMap write) :
    raws = raws' := by
  have hNil : ∀ (raw : RawStep) more,
      (raw :: more).flatMap write ≠ [] := by
    intro raw more
    rw [List.flatMap_cons, write]
    split <;> simp
  induction raws generalizing raws' with
  | nil =>
      cases raws' with
      | nil => rfl
      | cons raw' more' => exact absurd hText.symm (hNil raw' more')
  | cons raw more ih =>
      cases raws' with
      | nil => exact absurd hText (hNil raw more)
      | cons raw' more' =>
          rw [List.forall_mem_cons] at hWell hWell'
          have hRead := readStep?_write hWell.1
            fun _ hHead => head?_flatMap_write more hHead
          rw [← List.flatMap_cons, hText, List.flatMap_cons,
            readStep?_write hWell'.1
              fun _ hHead => head?_flatMap_write more' hHead] at hRead
          rcases Prod.mk.inj (Option.some.inj hRead) with
            ⟨hSame, hMore⟩
          rw [hSame, ih hWell.2 hWell'.2 hMore.symm]

end Whittle
