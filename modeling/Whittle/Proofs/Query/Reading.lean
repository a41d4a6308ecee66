import Whittle.Proofs.Query.Written

/-
  Which expressions are queries, and which steps they write.

  Key definitions include:
    * `RawStep.IsReadAs`
    * `queryText`
    * `IsReading`
    * `Text.HasShortNumbers`
    * `QueryError.IsSyntax`

  Main statements:
    * `addConditions_eq_ok_iff`
    * `RawStep.read_eq_ok_iff`
    * `readSteps_flatMap`
    * `of_readSteps`
    * `isSyntax_of_readSteps`
    * `readSteps_eq_ok_iff`

  An expression is read just when it is a sequence of steps of
  the grammar, as the steps that it writes.  An image or a
  position takes the place of those before it in its step.
-/

------------------------------------------------------------
-- The Grammar
------------------------------------------------------------

namespace Whittle

namespace Condition

/- The image that a condition asks for. -/
def image? : Condition → Option String
  | image text => some text
  | position _ => none

/- The number that a condition asks for. -/
def number? : Condition → Option Nat
  | image _ => none
  | position ds => some (Text.valueOfDigits ds)

/- The condition has no more digits than are read. -/
def IsShort : Condition → Prop
  | image _ => True
  | position ds => ds.length ≤ maxDigits

/- The condition does not ask for the position zero. -/
def IsPositive : Condition → Prop
  | image _ => True
  | position ds => 1 ≤ Text.valueOfDigits ds

end Condition

namespace RawStep

/-
  The brackets of a step hold these conditions, and the last
  image and the last position are the ones of the step.
-/
structure IsReadBy
    (raw : RawStep)
    (conditions : List Condition)
    (s : Step) : Prop where
  areWritten :
    List.Forall₂ Condition.Writes raw.conditions conditions
  arePositive : ∀ condition ∈ conditions, condition.IsPositive
  eq : s =
    { descends := raw.descends
      kind := raw.kind
      image := (conditions.filterMap Condition.image?).getLast?
      position :=
        (conditions.filterMap Condition.number?).getLast? }

/- The step that a step of an expression stands for. -/
def IsReadAs
    (raw : RawStep)
    (s : Step) : Prop :=
  ∃ conditions, raw.IsReadBy conditions s

end RawStep

/- The text writes the steps. -/
def IsReading
    (t : Text)
    (steps : List Step) : Prop :=
  ∃ raws, t.IsWritten raws ∧
    List.Forall₂ RawStep.IsReadAs raws steps

/-
  The text that is read for an expression: white space is
  stripped, and a query without an axis goes to descendants.
-/
def queryText
    (expression : String) : Text :=
  let stripped := Text.strip expression.toList
  if stripped.head? = some '/' then
    stripped
  else
    '/' :: '/' :: stripped

/- No number in brackets has more digits than are read. -/
def Text.HasShortNumbers
    (t : Text) : Prop :=
  ∀ inside condition, bracketed inside <:+: t →
    Condition.Writes inside condition → condition.IsShort

/- The refusals that are about the syntax of a query. -/
def QueryError.IsSyntax : QueryError → Prop
  | tooManyDigits _ => False
  | _ => True

end Whittle

------------------------------------------------------------
-- Numbers Of A Text
------------------------------------------------------------

namespace Whittle

namespace Text

variable {t t' : Text}

/- A part of a text has no longer numbers. -/
theorem HasShortNumbers.of_isInfix
    (hShort : t.HasShortNumbers)
    (hInfix : t' <:+: t) :
    t'.HasShortNumbers :=
  fun inside condition hGroup =>
    hShort inside condition (hGroup.trans hInfix)

/- A number is no longer than the text it stands in. -/
theorem HasShortNumbers.of_length_le
    (hLength : t.length ≤ maxDigits) :
    t.HasShortNumbers := by
  intro inside condition hGroup hWrites
  have hInside := hGroup.length_le
  rw [bracketed, List.length_cons, List.length_append] at hInside
  cases hWrites with
  | image => trivial
  | @position before digits after ds _ _ _ hSpells =>
      rw [List.length_append, List.length_append,
        hSpells.length_eq] at hInside
      show ds.length ≤ maxDigits
      omega

/- The slashes in front do not start a bracket group. -/
theorem HasShortNumbers.queryText
    {expression : String}
    (hShort : HasShortNumbers expression.toList) :
    (queryText expression).HasShortNumbers := by
  have hStripped := hShort.of_isInfix (strip_isInfix _)
  unfold Whittle.queryText
  dsimp only
  split
  · exact hStripped
  · intro inside condition hGroup
    have hSlash : ∀ s : Text, ¬ bracketed inside <+: '/' :: s :=
      fun s hPrefix =>
        absurd (List.cons_prefix_cons.mp hPrefix).1 (by decide)
    rcases List.infix_cons_iff.mp hGroup with hPrefix | hGroup
    · exact absurd hPrefix (hSlash _)
    · rcases List.infix_cons_iff.mp hGroup with hPrefix | hGroup
      · exact absurd hPrefix (hSlash _)
      · exact hStripped inside condition hGroup

end Text

/- Each bracket group is a part of the text of its step. -/
theorem RawStep.isInfix_write
    {raw : RawStep}
    {inside : Text}
    (hInside : inside ∈ raw.conditions) :
    bracketed inside <:+: raw.write := by
  have hGroups : bracketed inside <:+:
      raw.conditions.flatMap bracketed :=
    List.infix_of_mem_flatten (List.mem_map_of_mem hInside)
  exact hGroups.trans
    (List.suffix_append_of_suffix (List.suffix_append _ _)).isInfix

end Whittle

------------------------------------------------------------
-- Conditions Of A Step
------------------------------------------------------------

namespace Whittle

/- A step that also asks for a condition. -/
def Step.ask
    (s : Step) : Condition → Step
  | .image text => { s with image := some text }
  | .position ds => { s with position := some (Text.valueOfDigits ds) }

/- The last image and the last position are asked for. -/
theorem Step.foldl_ask
    (s : Step)
    (conditions : List Condition) :
    conditions.foldl ask s =
      { s with
        image :=
          (conditions.filterMap Condition.image?).getLast?.or s.image
        position :=
          (conditions.filterMap Condition.number?).getLast?.or
            s.position } := by
  induction conditions generalizing s with
  | nil => rfl
  | cons condition more ih =>
      rw [List.foldl_cons, ih]
      cases condition with
      | image text =>
          simp only [ask, Condition.image?, Condition.number?,
            List.filterMap_cons, List.getLast?_cons, Option.or_some,
            Option.some_or]
      | position ds =>
          simp only [ask, Condition.image?, Condition.number?,
            List.filterMap_cons, List.getLast?_cons, Option.or_some,
            Option.some_or]

variable {expression : String} {s s' : Step} {e : QueryError}
variable {insides : List Text}

/-
  Conditions are added when each of them is known, is short
  enough and does not ask for the position zero.
-/
theorem addConditions_eq_ok_iff :
    addConditions expression s insides = .ok s' ↔
      ∃ conditions,
        List.Forall₂ Condition.Writes insides conditions ∧
        (∀ condition ∈ conditions,
          condition.IsShort ∧ condition.IsPositive) ∧
        s' = conditions.foldl Step.ask s := by
  induction insides generalizing s with
  | nil =>
      constructor
      · intro hAdd
        cases hAdd
        exact ⟨[], .nil, fun _ h => absurd h List.not_mem_nil, rfl⟩
      · rintro ⟨conditions, hWritten, -, rfl⟩
        cases hWritten
        rfl
  | cons inside more ih =>
      constructor
      · intro hAdd
        unfold addConditions at hAdd
        split at hAdd
        · exact absurd hAdd (by simp)
        · rename_i text hRead
          rcases ih.mp hAdd with ⟨conditions, hWritten, hAll, hEq⟩
          exact ⟨.image text :: conditions,
            .cons (readCondition_eq_some_iff.mp hRead) hWritten,
            List.forall_mem_cons.mpr ⟨⟨trivial, trivial⟩, hAll⟩, hEq⟩
        · rename_i ds hRead
          split at hAdd
          · exact absurd hAdd (by simp)
          · rename_i hShort
            dsimp only at hAdd
            split at hAdd
            · exact absurd hAdd (by simp)
            · rename_i hPositive
              rcases ih.mp hAdd with ⟨conditions, hWritten, hAll, hEq⟩
              exact ⟨.position ds :: conditions,
                .cons (readCondition_eq_some_iff.mp hRead) hWritten,
                List.forall_mem_cons.mpr
                  ⟨⟨Nat.le_of_not_lt hShort,
                    Nat.pos_of_ne_zero hPositive⟩, hAll⟩, hEq⟩
      · rintro ⟨conditions, hWritten, hAll, rfl⟩
        cases hWritten with
        | @cons _ condition _ conditions hWrites hMore =>
            rw [List.forall_mem_cons] at hAll
            rcases hAll with ⟨⟨hShort, hPositive⟩, hAll⟩
            have hRest := (ih (s := s.ask condition)).mpr
              ⟨conditions, hMore, hAll, rfl⟩
            rw [addConditions, readCondition_eq_some_iff.mpr hWrites]
            cases condition with
            | image text => exact hRest
            | position ds =>
                dsimp only
                rw [if_neg (Nat.not_lt.mpr hShort),
                  if_neg (Nat.ne_of_gt hPositive)]
                exact hRest

/- Short numbers are not refused for their length. -/
theorem isSyntax_of_addConditions
    (hShort : ∀ inside ∈ insides, ∀ condition,
      Condition.Writes inside condition → condition.IsShort)
    (hAdd : addConditions expression s insides = .error e) :
    e.IsSyntax := by
  induction insides generalizing s with
  | nil => exact absurd hAdd (by simp [addConditions])
  | cons inside more ih =>
      rw [List.forall_mem_cons] at hShort
      unfold addConditions at hAdd
      split at hAdd
      · cases hAdd; trivial
      · exact ih hShort.2 hAdd
      · rename_i ds hRead
        have hDigits : ds.length ≤ maxDigits :=
          hShort.1 _ (readCondition_eq_some_iff.mp hRead)
        rw [if_neg (Nat.not_lt.mpr hDigits)] at hAdd
        dsimp only at hAdd
        split at hAdd
        · cases hAdd; trivial
        · exact ih hShort.2 hAdd

namespace RawStep

/- The step that a step of an expression is read as. -/
def read
    (expression : String)
    (raw : RawStep) : Except QueryError Step :=
  addConditions expression ⟨raw.descends, raw.kind, none, none⟩
    raw.conditions

variable {raw : RawStep} {conditions : List Condition}

/- A step is read when its brackets hold short conditions. -/
theorem read_eq_ok_iff :
    raw.read expression = .ok s ↔
      ∃ conditions, raw.IsReadBy conditions s ∧
        ∀ condition ∈ conditions, condition.IsShort := by
  rw [read, addConditions_eq_ok_iff]
  constructor
  · rintro ⟨conditions, hWritten, hAll, rfl⟩
    refine ⟨conditions,
      ⟨hWritten, fun c hc => (hAll c hc).2, ?_⟩,
      fun c hc => (hAll c hc).1⟩
    rw [Step.foldl_ask, Option.or_none, Option.or_none]
  · rintro ⟨conditions, ⟨hWritten, hPositive, rfl⟩, hShort⟩
    refine ⟨conditions, hWritten,
      fun c hc => ⟨hShort c hc, hPositive c hc⟩, ?_⟩
    rw [Step.foldl_ask, Option.or_none, Option.or_none]

/- A step with short numbers is read as what it stands for. -/
theorem read_eq_ok_iff_of_short
    (hShort : raw.write.HasShortNumbers) :
    raw.read expression = .ok s ↔ raw.IsReadAs s := by
  rw [read_eq_ok_iff]
  constructor
  · rintro ⟨conditions, hRead, -⟩
    exact ⟨conditions, hRead⟩
  · rintro ⟨conditions, hRead⟩
    refine ⟨conditions, hRead, ?_⟩
    intro condition hMem
    rcases List.mem_iff_get.mp hMem with ⟨i, rfl⟩
    have hLength := hRead.areWritten.length_eq
    have hWrites := (List.forall₂_iff_get.mp hRead.areWritten).2 i.val
      (by rw [hLength]; exact i.isLt) i.isLt
    exact hShort _ _ (isInfix_write (List.get_mem _ _)) hWrites

end RawStep

end Whittle

------------------------------------------------------------
-- Sequences Of Steps
------------------------------------------------------------

namespace Whittle

section

variable {ε α β : Type} {f : α → β} {x : Except ε α}

theorem map_eq_ok_iff
    {b : β} :
    x.map f = .ok b ↔ ∃ a, x = .ok a ∧ f a = b := by
  cases x with
  | error e => simp [Except.map]
  | ok a => simp [Except.map]

theorem map_eq_error_iff
    {e : ε} :
    x.map f = .error e ↔ x = .error e := by
  cases x with
  | error e => simp [Except.map]
  | ok a => simp [Except.map]

end

variable {expression : String} {length fuel : Nat} {rest : Text}
variable {steps : List Step} {raws : List RawStep} {e : QueryError}

theorem readSteps_succ
    (hSome : rest ≠ []) :
    readSteps expression length (fuel + 1) rest =
      match readStep? rest with
      | none =>
          .error (.unreadable expression (length - rest.length))
      | some (raw, after) =>
          match raw.read expression with
          | .error e => .error e
          | .ok s =>
              (readSteps expression length fuel after).map
                (s :: ·) := by
  rw [readSteps]
  · rfl
  · exact hSome

/-
  What reading one more step can come to: there is no step, or
  the step is refused, or the others are read after it.
-/
theorem readSteps_cases
    (hSome : rest ≠ []) :
    (∃ offset, readSteps expression length (fuel + 1) rest =
        .error (.unreadable expression offset)) ∨
      ∃ raw : RawStep, ∃ after,
        raw.IsWellFormed ∧ rest = raw.write ++ after ∧
        ((∃ e, raw.read expression = .error e ∧
            readSteps expression length (fuel + 1) rest = .error e) ∨
          ∃ s, raw.read expression = .ok s ∧
            readSteps expression length (fuel + 1) rest =
              (readSteps expression length fuel after).map
                (s :: ·)) := by
  rw [readSteps_succ hSome]
  cases hCut : readStep? rest with
  | none => exact .inl ⟨_, rfl⟩
  | some found =>
      rcases found with ⟨raw, after⟩
      rcases of_readStep? hCut with ⟨hWell, hText⟩
      refine .inr ⟨raw, after, hWell, hText, ?_⟩
      cases hStep : raw.read expression with
      | error e => exact .inl ⟨e, rfl, by simp only [hStep]⟩
      | ok s => exact .inr ⟨s, rfl, by simp only [hStep]⟩

/- Written steps are read one after the other. -/
theorem readSteps_flatMap
    (hWell : ∀ raw ∈ raws, raw.IsWellFormed)
    (hRead : List.Forall₂ (fun raw s => raw.read expression = .ok s)
      raws steps)
    (hFuel : raws.length ≤ fuel) :
    readSteps expression length fuel (raws.flatMap RawStep.write) =
      .ok steps := by
  induction hRead generalizing fuel with
  | nil => cases fuel <;> rfl
  | @cons raw s raws steps hStep _ ih =>
      rw [List.forall_mem_cons] at hWell
      cases fuel with
      | zero => exact absurd hFuel (by simp)
      | succ fuel =>
          have hText : (raw :: raws).flatMap RawStep.write ≠ [] := by
            rw [List.flatMap_cons, RawStep.write]
            split <;> simp
          have hCut := readStep?_write hWell.1
            fun _ hHead => head?_flatMap_write raws hHead
          rw [readSteps_succ hText, List.flatMap_cons, hCut]
          dsimp only
          rw [hStep]
          dsimp only
          rw [ih hWell.2 (Nat.le_of_succ_le_succ hFuel)]
          rfl

/- What is read is a sequence of written steps. -/
theorem of_readSteps
    (hRead : readSteps expression length fuel rest = .ok steps) :
    ∃ raws : List RawStep,
      (∀ raw ∈ raws, raw.IsWellFormed) ∧
      rest = raws.flatMap RawStep.write ∧
      List.Forall₂ (fun raw s => raw.read expression = .ok s)
        raws steps := by
  induction fuel generalizing rest steps with
  | zero =>
      cases rest with
      | nil =>
          cases hRead
          exact ⟨[], fun _ h => absurd h List.not_mem_nil, rfl, .nil⟩
      | cons c more => exact absurd hRead (by simp [readSteps])
  | succ fuel ih =>
      by_cases hSome : rest = []
      · subst hSome
        cases hRead
        exact ⟨[], fun _ h => absurd h List.not_mem_nil, rfl, .nil⟩
      · rcases readSteps_cases hSome with ⟨offset, hNone⟩ |
          ⟨raw, after, hWell, hText, hStep⟩
        · rw [hNone] at hRead
          cases hRead
        · rcases hStep with ⟨e, -, hRefused⟩ | ⟨s, hStep, hMore⟩
          · rw [hRefused] at hRead
            cases hRead
          · rw [hMore] at hRead
            rcases map_eq_ok_iff.mp hRead with
              ⟨more, hAfter, rfl⟩
            rcases ih hAfter with ⟨raws, hAll, rfl, hRaws⟩
            exact ⟨raw :: raws, List.forall_mem_cons.mpr ⟨hWell, hAll⟩,
              by rw [hText, List.flatMap_cons], .cons hStep hRaws⟩

/- A refusal is about the syntax when numbers are short. -/
theorem isSyntax_of_readSteps
    (hShort : rest.HasShortNumbers)
    (hRead : readSteps expression length fuel rest = .error e) :
    e.IsSyntax := by
  induction fuel generalizing rest with
  | zero =>
      cases rest with
      | nil => exact absurd hRead (by simp [readSteps])
      | cons c more => cases hRead; trivial
  | succ fuel ih =>
      by_cases hSome : rest = []
      · subst hSome
        exact absurd hRead (by simp [readSteps])
      · rcases readSteps_cases hSome with ⟨offset, hNone⟩ |
          ⟨raw, after, hWell, rfl, hStep⟩
        · rw [hNone] at hRead
          cases hRead
          trivial
        · rcases hStep with ⟨e', hStep, hRefused⟩ | ⟨s, -, hMore⟩
          · rw [hRefused] at hRead
            cases hRead
            refine isSyntax_of_addConditions ?_ hStep
            intro inside hInside condition
            exact hShort inside condition
              ((RawStep.isInfix_write hInside).trans
                (List.prefix_append raw.write after).isInfix)
          · rw [hMore] at hRead
            exact ih (hShort.of_isInfix
              (List.suffix_append raw.write after).isInfix)
              (map_eq_error_iff.mp hRead)

theorem length_le_of_write
    (raws : List RawStep) :
    raws.length ≤ (raws.flatMap RawStep.write).length := by
  induction raws with
  | nil => exact Nat.le_refl 0
  | cons raw more ih =>
      have hStep : 1 ≤ raw.write.length := by
        rw [RawStep.write]
        split <;> simp
      rw [List.flatMap_cons, List.length_append, List.length_cons]
      omega

/- Steps with short numbers are read as what they stand for. -/
theorem forall₂_read_iff
    (hShort : ∀ raw ∈ raws, raw.write.HasShortNumbers) :
    List.Forall₂ (fun raw s => raw.read expression = .ok s)
        raws steps ↔
      List.Forall₂ RawStep.IsReadAs raws steps := by
  induction raws generalizing steps with
  | nil => simp
  | cons raw more ih =>
      rw [List.forall_mem_cons] at hShort
      simp only [List.forall₂_cons_left_iff,
        RawStep.read_eq_ok_iff_of_short hShort.1, ih hShort.2]

/- With short numbers, just the readings of a text are read. -/
theorem readSteps_eq_ok_iff
    (hShort : rest.HasShortNumbers)
    (hSome : rest ≠ [])
    (hFuel : rest.length ≤ fuel) :
    readSteps expression length fuel rest = .ok steps ↔
      IsReading rest steps := by
  have hPart : ∀ raws : List RawStep,
      rest = raws.flatMap RawStep.write →
      ∀ raw ∈ raws, raw.write.HasShortNumbers := by
    rintro raws rfl raw hMem
    exact hShort.of_isInfix
      (List.infix_of_mem_flatten (List.mem_map_of_mem hMem))
  constructor
  · intro hRead
    rcases of_readSteps hRead with ⟨raws, hWell, hText, hSteps⟩
    refine ⟨raws, ⟨?_, hWell, hText⟩,
      (forall₂_read_iff (hPart raws hText)).mp hSteps⟩
    rintro rfl
    exact hSome hText
  · rintro ⟨raws, ⟨-, hWell, hText⟩, hSteps⟩
    have hLength : raws.length ≤ fuel := by
      refine Nat.le_trans (length_le_of_write raws) ?_
      rw [← hText]
      exact hFuel
    have hRead : List.Forall₂
        (fun raw s => raw.read expression = .ok s) raws steps :=
      (forall₂_read_iff (hPart raws hText)).mpr hSteps
    rw [hText]
    exact readSteps_flatMap hWell hRead hLength

theorem not_isWritten_slashes :
    ¬ Text.IsWritten ['/', '/'] raws := by
  rintro ⟨hSome, hWell, hText⟩
  cases raws with
  | nil => exact hSome rfl
  | cons raw more =>
      have hRead := readStep?_write
        (hWell raw List.mem_cons_self)
        fun _ hHead => head?_flatMap_write more hHead
      rw [← List.flatMap_cons, ← hText] at hRead
      exact absurd hRead (by simp [readStep?, readKind?])

theorem queryText_ne_nil
    (expression : String) :
    queryText expression ≠ [] := by
  unfold queryText
  dsimp only
  split
  · rename_i hHead
    intro hNil
    rw [hNil] at hHead
    exact absurd hHead (by simp)
  · exact List.cons_ne_nil _ _

theorem readQuery_of_strip_ne_nil
    (hSome : Text.strip expression.toList ≠ []) :
    readQuery expression =
      (readSteps expression (queryText expression).length
        (queryText expression).length (queryText expression)).map
        fun steps => ⟨expression, steps⟩ := by
  have hEmpty : (Text.strip expression.toList).isEmpty ≠ true :=
    fun hNil => hSome (List.isEmpty_iff.mp hNil)
  rw [readQuery]
  dsimp only
  rw [if_neg hEmpty]
  rfl

end Whittle
