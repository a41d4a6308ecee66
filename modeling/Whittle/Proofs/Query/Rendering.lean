import Whittle.Proofs.Query.Reading

/-
  Writing steps as an expression and reading them again.

  Key definitions include:
    * `Step.IsRenderable`
    * `Step.toRaw`
    * `render`

  Main statements:
    * `Step.isReadBy_toRaw`
    * `queryText_render`
    * `readQuery_render_eq`
    * `readQuery_reads`

  An image is put between quotes of a kind that it does not
  hold.  A rendering has no white space at its ends, so
  nothing of it is stripped before it is read.
-/

------------------------------------------------------------
-- Rendering
------------------------------------------------------------

namespace Whittle

namespace Step

/- The quote that an image is put between. -/
def quoteMark
    (image : Text) : Char :=
  if '\'' ∈ image then '"' else '\''

/- The inside of the brackets that ask for an image. -/
def imageText
    (image : Text) : Text :=
  "@Image=".toList ++
    quoteMark image :: (image ++ [quoteMark image])

/- The step as it stands in an expression. -/
def toRaw
    (s : Step) : RawStep where
  descends := s.descends
  kind := s.kind
  conditions :=
    (s.image.map fun image => imageText image.toList).toList ++
      (s.position.map (Nat.toDigits 10)).toList

/-
  A step that the grammar can write.  Of an image only one
  kind of quote can be told from the quotes around it, and a
  bracket would end the group that it stands in.
-/
structure IsRenderable
    (s : Step) : Prop where
  isName : ∀ kind, s.kind = some kind → IsName kind.toList
  isInside : ∀ image, s.image = some image → ']' ∉ image.toList
  isQuotable : ∀ image, s.image = some image →
    ¬ ('\'' ∈ image.toList ∧ '"' ∈ image.toList)
  isPositive : ∀ n, s.position = some n → 1 ≤ n
  isShort : ∀ n, s.position = some n →
    (Nat.toDigits 10 n).length ≤ maxDigits

end Step

/- The expression that writes some steps. -/
def render
    (steps : List Step) : String :=
  String.ofList (steps.flatMap fun s => s.toRaw.write)

end Whittle

------------------------------------------------------------
-- Conditions Of A Rendered Step
------------------------------------------------------------

namespace Whittle

namespace Step

open Text

variable {s : Step} {image : Text} {n : Nat}

/- The quotes around an image do not stand in it. -/
theorem quoteMark_not_mem
    (hQuotable : ¬ ('\'' ∈ image ∧ '"' ∈ image)) :
    quoteMark image ∉ image := by
  unfold quoteMark
  split
  · rename_i hSingle
    exact fun hDouble => hQuotable ⟨hSingle, hDouble⟩
  · rename_i hSingle
    exact hSingle

/- A rendered image is written as that image. -/
theorem writes_imageText
    (hQuotable : ¬ ('\'' ∈ image ∧ '"' ∈ image)) :
    Condition.Writes (imageText image)
      (.image (String.ofList image)) := by
  have hNil : IsBlank [] := fun _ h => absurd h List.not_mem_nil
  have hMark : quoteMark image = '\'' ∨ quoteMark image = '"' := by
    unfold quoteMark
    split
    · exact .inr rfl
    · exact .inl rfl
  exact .image hNil hNil hNil hNil hMark (quoteMark_not_mem hQuotable)

/- The values of the digits of a number. -/
def digitValues
    (n : Nat) : List Nat :=
  (Nat.toDigits 10 n).map fun c => c.toNat - '0'.toNat

/- A number is spelled by its digits. -/
theorem spells_toDigits
    (n : Nat) :
    Spells (Nat.toDigits 10 n) (digitValues n) := by
  have hDigits : ∀ c ∈ Nat.toDigits 10 n, c.isDigit = true :=
    fun c hc => Nat.isDigit_of_mem_toDigits (by omega) (by omega) hc
  rw [Spells, digitValues, List.forall₂_map_right_iff,
    List.forall₂_same]
  exact fun c hc => digitValue?_of_isDigit (hDigits c hc)

/- The digits of a number are worth the number. -/
theorem valueOfDigits_digitValues
    (n : Nat) :
    valueOfDigits (digitValues n) = n := by
  rw [digitValues, valueOfDigits, List.foldl_map,
    ← Nat.ofDigitChars_eq_foldl, Nat.ofDigitChars_ten_toDigits]

/- A rendered position is written as that position. -/
theorem writes_toDigits
    (n : Nat) :
    Condition.Writes (Nat.toDigits 10 n)
      (.position (digitValues n)) := by
  have hNil : IsBlank [] := fun _ h => absurd h List.not_mem_nil
  have hWrites := Condition.Writes.position hNil hNil
    Nat.toDigits_ne_nil (spells_toDigits n)
  rwa [List.nil_append, List.append_nil] at hWrites

/- The conditions that the brackets of a rendered step hold. -/
def conditions
    (s : Step) : List Condition :=
  (s.image.map Condition.image).toList ++
    (s.position.map fun n => .position (digitValues n)).toList

/- A condition of a rendered step is its image or its position. -/
theorem of_mem_conditions
    {condition : Condition}
    (hMem : condition ∈ s.conditions) :
    (∃ image, s.image = some image ∧ condition = .image image) ∨
      ∃ n, s.position = some n ∧
        condition = .position (digitValues n) := by
  rcases List.mem_append.mp hMem with hImage | hPosition
  · rcases Option.map_eq_some_iff.mp (Option.mem_toList.mp hImage)
      with ⟨image, hSome, rfl⟩
    exact .inl ⟨image, hSome, rfl⟩
  · rcases Option.map_eq_some_iff.mp (Option.mem_toList.mp hPosition)
      with ⟨n, hSome, rfl⟩
    exact .inr ⟨n, hSome, rfl⟩

/- The only image among the conditions is that of the step. -/
theorem filterMap_image?_conditions
    (s : Step) :
    s.conditions.filterMap Condition.image? = s.image.toList := by
  rcases s with ⟨descends, kind, image, position⟩
  cases image <;> cases position <;> rfl

/- The only number among them is the position of the step. -/
theorem filterMap_number?_conditions
    (s : Step) :
    s.conditions.filterMap Condition.number? = s.position.toList := by
  rcases s with ⟨descends, kind, image, position⟩
  cases position with
  | none => cases image <;> rfl
  | some n =>
      have hNumber :
          Condition.number? (.position (digitValues n)) = some n := by
        rw [Condition.number?, valueOfDigits_digitValues]
      cases image with
      | none => exact List.filterMap_cons_some hNumber
      | some image => exact List.filterMap_cons_some hNumber

/- A rendered step is read as that step. -/
theorem isReadBy_toRaw
    (hRender : s.IsRenderable) :
    s.toRaw.IsReadBy s.conditions s := by
  rcases s with ⟨descends, kind, image, position⟩
  constructor
  · refine List.rel_append ?_ ?_
    · cases image with
      | none => exact .nil
      | some image =>
          have hWrites :=
            writes_imageText (hRender.isQuotable image rfl)
          rw [String.ofList_toList] at hWrites
          exact .cons hWrites .nil
    · cases position with
      | none => exact .nil
      | some n => exact .cons (writes_toDigits n) .nil
  · intro condition hMem
    rcases of_mem_conditions hMem with
      ⟨image, -, rfl⟩ | ⟨n, hSome, rfl⟩
    · trivial
    · rw [Condition.IsPositive, valueOfDigits_digitValues]
      exact hRender.isPositive n hSome
  · rw [filterMap_image?_conditions, filterMap_number?_conditions]
    cases image <;> cases position <;> rfl

/- The conditions of a rendered step are short enough. -/
theorem isShort_of_mem_conditions
    {condition : Condition}
    (hRender : s.IsRenderable)
    (hMem : condition ∈ s.conditions) :
    condition.IsShort := by
  rcases of_mem_conditions hMem with
    ⟨image, -, rfl⟩ | ⟨n, hSome, rfl⟩
  · trivial
  · have hShort := hRender.isShort n hSome
    rw [(spells_toDigits n).length_eq] at hShort
    exact hShort

/- A rendered step belongs to the grammar. -/
theorem isWellFormed_toRaw
    (hRender : s.IsRenderable) :
    s.toRaw.IsWellFormed := by
  refine ⟨hRender.isName, ?_⟩
  intro inside hMem
  rcases List.mem_append.mp hMem with hImage | hPosition
  · rcases Option.map_eq_some_iff.mp (Option.mem_toList.mp hImage)
      with ⟨image, hSome, rfl⟩
    have hMark : ']' ≠ quoteMark image.toList := by
      unfold quoteMark
      split
      · decide
      · decide
    have hStart : ']' ∉ "@Image=".toList := by decide
    intro hBracket
    rcases List.mem_append.mp hBracket with hBracket | hBracket
    · exact hStart hBracket
    · simp only [List.mem_cons, List.mem_append, List.not_mem_nil,
        or_false] at hBracket
      rcases hBracket with hEq | hMem | hEq
      · exact hMark hEq
      · exact hRender.isInside image hSome hMem
      · exact hMark hEq
  · rcases Option.map_eq_some_iff.mp (Option.mem_toList.mp hPosition)
      with ⟨n, -, rfl⟩
    intro hBracket
    exact absurd
      (Nat.isDigit_of_mem_toDigits (by omega) (by omega) hBracket)
      (by decide)

end Step

end Whittle

------------------------------------------------------------
-- The Ends Of A Rendering
------------------------------------------------------------

namespace Whittle

variable {t : Text} {c d : Char} {raw : RawStep}
variable {steps : List Step}

/- A character of a name is visible. -/
theorem isBlank_eq_false_of_isWordChar
    (hWord : isWordChar c = true) :
    isBlank c = false := by
  have hBetween : ∀ {low high : Char},
      low.val ≤ c.val ∧ c.val ≤ high.val →
      low.toNat ≤ c.toNat ∧ c.toNat ≤ high.toNat :=
    fun h => ⟨UInt32.le_iff_toNat_le.mp h.1,
      UInt32.le_iff_toNat_le.mp h.2⟩
  have hRange : 0x30 ≤ c.toNat ∧ c.toNat ≤ 0x7A := by
    rcases Bool.or_eq_true_iff.mp hWord with hAlphanum | hUnderscore
    · rcases Bool.or_eq_true_iff.mp hAlphanum with hAlpha | hDigit
      · rcases Bool.or_eq_true_iff.mp hAlpha with hUpper | hLower
        · have hLetter := hBetween (of_decide_eq_true hUpper)
          exact ⟨Nat.le_trans (by decide) hLetter.1,
            Nat.le_trans hLetter.2 (by decide)⟩
        · rcases Bool.and_eq_true_iff.mp hLower with ⟨hFrom, hTo⟩
          have hLetter := hBetween
            ⟨of_decide_eq_true hFrom, of_decide_eq_true hTo⟩
          exact ⟨Nat.le_trans (by decide) hLetter.1, hLetter.2⟩
      · have hRange := Char.isDigit_iff_toNat.mp hDigit
        exact ⟨hRange.1, Nat.le_trans hRange.2 (by decide)⟩
    · rw [of_decide_eq_true hUnderscore]
      decide
  simp only [isBlank, Bool.or_eq_false_iff, Bool.and_eq_false_iff,
    decide_eq_false_iff_not]
  omega

/- A text with visible ends is not stripped. -/
theorem Text.strip_of_ends
    (hHead : t.head? = some c)
    (hLast : t.getLast? = some d)
    (hVisible : isBlank c = false)
    (hVisible' : isBlank d = false) :
    strip t = t := by
  have hDrop : ∀ (s : Text) (c : Char), s.head? = some c →
      isBlank c = false → s.dropWhile isBlank = s := by
    intro s c hHead hVisible
    cases s with
    | nil => rfl
    | cons b rest =>
        cases hHead
        exact List.dropWhile_cons_of_neg (by simp [hVisible])
  rw [strip, trimWhere, hDrop t c hHead hVisible,
    hDrop t.reverse d (by rw [List.head?_reverse, hLast]) hVisible',
    List.reverse_reverse]

/- A step of the grammar ends with a visible character. -/
theorem RawStep.exists_getLast?_write
    (hWell : raw.IsWellFormed) :
    ∃ d, raw.write.getLast? = some d ∧ isBlank d = false := by
  have hEnd : ∃ d,
      (nameOfKind raw.kind ++
        raw.conditions.flatMap bracketed).getLast? = some d ∧
      isBlank d = false := by
    cases List.eq_nil_or_concat raw.conditions with
    | inr hMore =>
        rcases hMore with ⟨more, inside, hConcat⟩
        refine ⟨']', ?_, by decide⟩
        rw [hConcat, List.concat_eq_append, List.flatMap_append,
          List.flatMap_singleton, bracketed, ← List.cons_append,
          ← List.append_assoc, ← List.append_assoc,
          List.getLast?_concat]
    | inl hNil =>
        rw [hNil, List.flatMap_nil, List.append_nil]
        cases hKind : raw.kind with
        | none => exact ⟨'*', rfl, by decide⟩
        | some kind =>
            rcases hWell.isName kind hKind with
              ⟨c, rest, hText, hStart, -, hRest⟩
            have hWord : ∀ d ∈ kind.toList, isWordChar d = true := by
              rw [hText]
              exact List.forall_mem_cons.mpr ⟨hStart, hRest⟩
            have hSome : kind.toList ≠ [] := by
              rw [hText]
              exact List.cons_ne_nil c rest
            exact ⟨kind.toList.getLast hSome,
              List.getLast?_eq_some_getLast hSome,
              isBlank_eq_false_of_isWordChar
                (hWord _ (List.getLast_mem hSome))⟩
  rcases hEnd with ⟨d, hLast, hVisible⟩
  refine ⟨d, ?_, hVisible⟩
  rw [RawStep.write, List.getLast?_append, hLast, Option.some_or]

theorem queryText_render
    (hSome : steps ≠ [])
    (hRender : ∀ s ∈ steps, s.IsRenderable) :
    Text.strip (render steps).toList = (render steps).toList ∧
      (render steps).toList.head? = some '/' := by
  have hText : (render steps).toList =
      (steps.map Step.toRaw).flatMap RawStep.write := by
    rw [render, String.toList_ofList, List.flatMap_map]
  have hHead : (render steps).toList.head? = some '/' := by
    cases hFirst : (render steps).toList.head? with
    | some c =>
        rw [hText] at hFirst
        rw [head?_flatMap_write _ hFirst]
    | none =>
        rw [hText, List.head?_eq_none_iff] at hFirst
        cases steps with
        | nil => exact absurd rfl hSome
        | cons s more =>
            rw [List.map_cons, List.flatMap_cons, RawStep.write]
              at hFirst
            split at hFirst <;> exact absurd hFirst (by simp)
  refine ⟨?_, hHead⟩
  rcases List.eq_nil_or_concat steps with hNil | ⟨more, s, hConcat⟩
  · exact absurd hNil hSome
  · have hMem : s ∈ steps := by simp [hConcat]
    rcases RawStep.exists_getLast?_write
      (Step.isWellFormed_toRaw (hRender s hMem)) with
      ⟨d, hLast, hVisible⟩
    refine Text.strip_of_ends hHead (d := d) ?_ (by decide) hVisible
    rw [hText, hConcat]
    simp [List.getLast?_append, hLast]

end Whittle

------------------------------------------------------------
-- Reading Queries
------------------------------------------------------------

namespace Whittle

variable {steps : List Step}

/- A rendering is read as the steps that it renders. -/
theorem readQuery_render_eq
    (hSome : steps ≠ [])
    (hRender : ∀ s ∈ steps, s.IsRenderable) :
    readQuery (render steps) = .ok ⟨render steps, steps⟩ := by
  rcases queryText_render hSome hRender with ⟨hStrip, hHead⟩
  have hQuery : queryText (render steps) =
      (steps.map Step.toRaw).flatMap RawStep.write := by
    rw [queryText, hStrip, if_pos hHead, render,
      String.toList_ofList, List.flatMap_map]
  have hVisible : Text.strip (render steps).toList ≠ [] := by
    rw [hStrip]
    intro hNil
    rw [hNil] at hHead
    exact absurd hHead (by simp)
  have hWell : ∀ raw ∈ steps.map Step.toRaw, raw.IsWellFormed := by
    intro raw hMem
    rcases List.mem_map.mp hMem with ⟨s, hs, rfl⟩
    exact Step.isWellFormed_toRaw (hRender s hs)
  have hRead : List.Forall₂
      (fun raw s => raw.read (render steps) = .ok s)
      (steps.map Step.toRaw) steps := by
    rw [List.forall₂_map_left_iff, List.forall₂_same]
    intro s hs
    exact RawStep.read_eq_ok_iff.mpr ⟨s.conditions,
      Step.isReadBy_toRaw (hRender s hs),
      fun _ hMem =>
        Step.isShort_of_mem_conditions (hRender s hs) hMem⟩
  rw [readQuery_of_strip_ne_nil hVisible, hQuery,
    readSteps_flatMap hWell hRead (length_le_of_write _)]
  rfl

/- With short numbers, just the readings are queries. -/
theorem readQuery_eq_ok_iff
    {expression : String}
    {q : PathQuery}
    (hShort : Text.HasShortNumbers expression.toList) :
    readQuery expression = .ok q ↔
      q.expression = expression ∧
        IsReading (queryText expression) q.steps := by
  have hText : (queryText expression).HasShortNumbers :=
    hShort.queryText
  have hSome := queryText_ne_nil expression
  by_cases hEmpty : Text.strip expression.toList = []
  · have hSlashes : queryText expression = ['/', '/'] := by
      rw [queryText, hEmpty]
      rfl
    have hRead : readQuery expression = .error .empty := by
      rw [readQuery, hEmpty]
      rfl
    rw [hRead, hSlashes]
    refine ⟨fun h => absurd h (by simp), ?_⟩
    rintro ⟨-, raws, hWritten, -⟩
    exact absurd hWritten not_isWritten_slashes
  · have hSteps : readSteps expression (queryText expression).length
        (queryText expression).length (queryText expression) =
          .ok q.steps ↔
        IsReading (queryText expression) q.steps :=
      readSteps_eq_ok_iff hText hSome (Nat.le_refl _)
    rw [readQuery_of_strip_ne_nil hEmpty, ← hSteps, map_eq_ok_iff]
    rcases q with ⟨expression', steps⟩
    constructor
    · rintro ⟨steps', hRead, hQuery⟩
      cases hQuery
      exact ⟨rfl, hRead⟩
    · rintro ⟨rfl, hRead⟩
      exact ⟨steps, hRead, rfl⟩

/- With short numbers, a refusal is about the syntax. -/
theorem isSyntax_of_readQuery
    {expression : String}
    {e : QueryError}
    (hShort : Text.HasShortNumbers expression.toList)
    (hRead : readQuery expression = .error e) :
    e.IsSyntax := by
  by_cases hEmpty : Text.strip expression.toList = []
  · rw [readQuery, hEmpty] at hRead
    cases hRead
    trivial
  · rw [readQuery_of_strip_ne_nil hEmpty, map_eq_error_iff] at hRead
    exact isSyntax_of_readSteps hShort.queryText hRead

/-
  Expressions whose numbers in brackets are not too long to be
  read are read just when their text is a sequence of steps, in
  the one way that there is, and else refused for their syntax.
  What steps are rendered as is read as these steps.
-/
theorem readQuery_reads :
    (∀ expression : String,
      Text.HasShortNumbers expression.toList →
      (∀ q, readQuery expression = .ok q ↔
        q.expression = expression ∧
          IsReading (queryText expression) q.steps) ∧
      (∀ raws raws',
        (queryText expression).IsWritten raws →
        (queryText expression).IsWritten raws' →
        raws = raws') ∧
      ((¬ ∃ steps, IsReading (queryText expression) steps) →
        ∃ e, readQuery expression = .error e ∧ e.IsSyntax)) ∧
    ∀ steps : List Step, steps ≠ [] →
      (∀ s ∈ steps, s.IsRenderable) →
      readQuery (render steps) = .ok ⟨render steps, steps⟩ := by
  refine ⟨?_, fun _ hSome hRender =>
    readQuery_render_eq hSome hRender⟩
  intro expression hShort
  have hAccepts : ∀ q, readQuery expression = .ok q ↔
      q.expression = expression ∧
        IsReading (queryText expression) q.steps :=
    fun q => readQuery_eq_ok_iff hShort
  refine ⟨hAccepts, ?_, ?_⟩
  · intro raws raws' hWritten hWritten'
    exact RawStep.eq_of_flatMap_write hWritten.areWellFormed
      hWritten'.areWellFormed (hWritten.eq.symm.trans hWritten'.eq)
  · intro hNone
    cases hRead : readQuery expression with
    | ok q =>
        exact absurd ⟨q.steps, ((hAccepts q).mp hRead).2⟩ hNone
    | error e => exact ⟨e, rfl, isSyntax_of_readQuery hShort hRead⟩

/-
  White space, both quotes, a repeated position and digits of
  another script, and an expression with an open bracket.
-/
theorem readQuery_reads_quoted :
    let expression := " Name[ @Image = \"it's\" ][1][ ٣ ]/*\n"
    let steps : List Step :=
      [⟨true, some "Name", some "it's", some 3⟩,
        ⟨false, none, none, none⟩]
    Text.HasShortNumbers expression.toList ∧
      IsReading (queryText expression) steps ∧
      (∃! raws, (queryText expression).IsWritten raws) ∧
      (∀ s ∈ steps, s.IsRenderable) ∧
      readQuery (render steps) = .ok ⟨render steps, steps⟩ ∧
      Text.HasShortNumbers "/Name[1".toList ∧
      ∃ e, readQuery "/Name[1" = .error e ∧ e.IsSyntax := by
  intro expression steps
  have hShort : Text.HasShortNumbers expression.toList :=
    .of_length_le (by decide)
  have hShort' : Text.HasShortNumbers "/Name[1".toList :=
    .of_length_le (by decide)
  rcases readQuery_reads with ⟨hReads, hRenders⟩
  rcases hReads expression hShort with ⟨hAccepts, hUnique, -⟩
  rcases hReads "/Name[1" hShort' with ⟨hAccepts', -, hRefuses⟩
  have hRead : readQuery expression = .ok ⟨expression, steps⟩ := by
    decide +kernel
  have hOpen : readQuery "/Name[1" =
      .error (.unreadable "/Name[1" 5) := by
    decide +kernel
  have hReading := ((hAccepts _).mp hRead).2
  have hFirst : Step.IsRenderable
      ⟨true, some "Name", some "it's", some 3⟩ := by
    refine ⟨?_, ?_, ?_, ?_, ?_⟩
    · rintro _ ⟨⟩
      exact ⟨'N', ['a', 'm', 'e'], rfl, by decide, by decide,
        List.all_eq_true.mp (by decide)⟩
    · rintro _ ⟨⟩
      decide
    · rintro _ ⟨⟩
      decide
    · rintro _ ⟨⟩
      decide
    · rintro _ ⟨⟩
      decide
  have hSecond : Step.IsRenderable ⟨false, none, none, none⟩ := by
    constructor <;> rintro _ ⟨⟩
  have hRenderable : ∀ s ∈ steps, s.IsRenderable :=
    List.forall_mem_cons.mpr ⟨hFirst,
      List.forall_mem_cons.mpr ⟨hSecond,
        fun _ h => absurd h List.not_mem_nil⟩⟩
  refine ⟨hShort, hReading, ?_, hRenderable,
    hRenders steps (List.cons_ne_nil _ _) hRenderable, hShort', ?_⟩
  · rcases hReading with ⟨raws, hWritten, -⟩
    exact ⟨raws, hWritten,
      fun raws' hWritten' => hUnique raws' raws hWritten' hWritten⟩
  · refine hRefuses ?_
    rintro ⟨steps', hReading'⟩
    have hOk := (hAccepts' ⟨"/Name[1", steps'⟩).mpr ⟨rfl, hReading'⟩
    rw [hOpen] at hOk
    exact absurd hOk (by simp)

end Whittle
