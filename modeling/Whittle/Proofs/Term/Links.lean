import Mathlib.Data.List.TakeWhile
import Whittle.Proofs.Term.Settling
import Whittle.Term.Links

/-
  Which nodes are related by the names that they use.

  Key definitions include:
    * `Outline.Loads`
    * `Outline.Stores`
    * `Outline.IsInnermost`
    * `Outline.Uses`
    * `Outline.ImportBinds`
    * `Outline.Defines`
    * `Outline.IsParameterFor`

  Main statements:
    * `Outline.enclosingStatement_eq_iff`
    * `Outline.mem_links_iff`
    * `Outline.mem_relations_iff`
    * `Outline.relations_iff`

  The tables of names are lists that are searched, so a name
  may have several entries and a node may have several names.
  A pair of nodes is related if one pair of entries relates
  it.
-/

------------------------------------------------------------
-- Definitions And Uses
------------------------------------------------------------

namespace Whittle

namespace Outline

/- A node is a name that is loaded. -/
def Loads
    (o : Outline)
    (x : String)
    (n : Nat) : Prop :=
  (o.term n).label = "Name" ∧ isLoad (o.term n) = true ∧
    (o.term n).word? "id" = some x

/- A node is a name that is stored or deleted. -/
def Stores
    (o : Outline)
    (x : String)
    (n : Nat) : Prop :=
  (o.term n).label = "Name" ∧ isLoad (o.term n) = false ∧
    (o.term n).word? "id" = some x

/- A statement is a node or lies around it. -/
def Encloses
    (o : Outline)
    (u n : Nat) : Prop :=
  o.tree.Reaches u n ∧ (o.term u).isStatement = true

/-
  A node is the innermost statement around another one.  It is
  the other one itself if there is no statement around that.
-/
def IsInnermost
    (o : Outline)
    (u n : Nat) : Prop :=
  (o.Encloses u n ∧ ∀ v, o.Encloses v n → o.tree.Reaches v u) ∨
    ((∀ v, ¬ o.Encloses v n) ∧ u = n)

/-
  A node uses a name: it is the innermost statement around a
  place where the name is loaded.
-/
def Uses
    (o : Outline)
    (x : String)
    (u : Nat) : Prop :=
  ∃ n, o.Loads x n ∧ o.IsInnermost u n

/- A name is what comes before the first dot of a dotted name. -/
def IsFirstComponent
    (x dotted : String) : Prop :=
  '.' ∉ x.toList ∧ (dotted = x ∨ ∃ rest, dotted = x ++ "." ++ rest)

/-
  An item of an import binds a name: the one that it is given
  there, or else the first component of its own.
-/
def ImportBinds
    (item : Term)
    (x : String) : Prop :=
  (item.word? "asname" = some x ∧ x ≠ "") ∨
    ((∀ other, item.word? "asname" = some other → other = "") ∧
      ∃ dotted, item.word? "name" = some dotted ∧
        IsFirstComponent x dotted)

/-
  A node defines a name: as a function or a class, by an
  import, or as the innermost statement around a name that is
  stored or deleted.
-/
def Defines
    (o : Outline)
    (x : String)
    (d : Nat) : Prop :=
  ((o.term d).isDefinition = true ∧
      (o.term d).word? "name" = some x) ∨
    ((o.term d).isImport = true ∧
      ∃ item ∈ ((o.term d).part "names").items,
        ImportBinds item x) ∨
    ∃ n, o.Stores x n ∧ o.IsInnermost d n

/-
  A node is a parameter of some name, and another node lies
  inside the parent of the parameter.
-/
def IsParameterFor
    (o : Outline)
    (x : String)
    (d u : Nat) : Prop :=
  (o.term d).label = "arg" ∧ (o.term d).word? "arg" = some x ∧
    ∃ p, d ∈ o.tree.children p ∧ o.tree.Reaches p u ∧ p ≠ u

end Outline

end Whittle

------------------------------------------------------------
-- Innermost Statements
------------------------------------------------------------

namespace Whittle

namespace Outline

variable {o : Outline}

/- There is at most one innermost statement around a node. -/
theorem IsInnermost.eq
    (hLinked : o.tree.IsLinked)
    {u v n : Nat}
    (hu : o.IsInnermost u n)
    (hv : o.IsInnermost v n) :
    u = v := by
  rcases hu with ⟨hEncloses, hInner⟩ | ⟨hNone, rfl⟩
  · rcases hv with ⟨hEncloses', hInner'⟩ | ⟨hNone', _⟩
    · exact hLinked.eq_of_reaches (hInner' u hEncloses)
        (hInner v hEncloses')
    · exact absurd hEncloses (hNone' u)
  · rcases hv with ⟨hEncloses', _⟩ | ⟨_, rfl⟩
    · exact absurd hEncloses' (hNone v)
    · rfl

/- The search along a path upwards finds the innermost one. -/
theorem isInnermost_enclosingStatement
    (hLinked : o.tree.IsLinked)
    (n : Nat) :
    o.IsInnermost (o.enclosingStatement n) n := by
  unfold enclosingStatement
  cases hFind :
      (o.tree.path n).reverse.find?
        fun j => (o.term j).isStatement with
  | none =>
      refine .inr ⟨?_, rfl⟩
      rintro v ⟨hReaches, hStatement⟩
      rw [List.find?_eq_none] at hFind
      refine hFind v ?_ hStatement
      rw [List.mem_reverse]
      exact hLinked.mem_path.mpr hReaches
  | some u =>
      obtain ⟨hStatement, inner, outer, hSplit, hNone⟩ :=
        List.find?_eq_some_iff_append.mp hFind
      have hPath :
          o.tree.path n = outer.reverse ++ u :: inner.reverse := by
        have hReverse := congrArg List.reverse hSplit
        simpa using hReverse
      have hPairs := hLinked.pairwise_path n
      rw [hPath, List.pairwise_append] at hPairs
      refine .inl ⟨⟨?_, hStatement⟩, ?_⟩
      · rw [Option.getD_some, ← hLinked.mem_path, hPath]
        simp
      · rintro v ⟨hReaches, hStatement'⟩
        rw [← hLinked.mem_path, hPath, List.mem_append,
          List.mem_cons] at hReaches
        rcases hReaches with hOuter | rfl | hInner
        · exact hPairs.2.2 v hOuter u List.mem_cons_self
        · exact .refl
        · have hNot := hNone v (List.mem_reverse.mp hInner)
          rw [hStatement'] at hNot
          cases hNot

/- The statement around a node is the innermost one. -/
theorem enclosingStatement_eq_iff
    (hLinked : o.tree.IsLinked)
    {u n : Nat} :
    o.enclosingStatement n = u ↔ o.IsInnermost u n := by
  have hOwn := isInnermost_enclosingStatement hLinked n
  constructor
  · rintro rfl
    exact hOwn
  · exact fun hInner => hOwn.eq hLinked hInner

theorem IsInnermost.le
    (hLinked : o.tree.IsLinked)
    {u n : Nat}
    (hInner : o.IsInnermost u n) :
    u ≤ n := by
  rcases hInner with ⟨⟨hReaches, _⟩, _⟩ | ⟨_, rfl⟩
  · exact hLinked.le_of_reaches hReaches
  · exact Nat.le_refl _

end Outline

end Whittle

------------------------------------------------------------
-- Tables Of Names
------------------------------------------------------------

namespace Whittle

namespace Outline

variable {o : Outline}

/- The first component is what is taken up to the first dot. -/
theorem isFirstComponent_iff
    {x dotted : String} :
    IsFirstComponent x dotted ↔
      String.ofList (dotted.toList.takeWhile (· ≠ '.')) = x := by
  constructor
  · rintro ⟨hNoDot, hWhole⟩
    have hAll : ∀ c ∈ x.toList, decide (c ≠ '.') = true := by
      intro c hc
      rw [decide_eq_true_iff]
      rintro rfl
      exact hNoDot hc
    rw [← String.toList_inj, String.toList_ofList]
    rcases hWhole with rfl | ⟨rest, rfl⟩
    · exact List.takeWhile_eq_self_iff.mpr hAll
    · rw [String.toList_append, String.toList_append,
        List.append_assoc, List.takeWhile_append_of_pos hAll]
      simp
  · rintro rfl
    have hSplit :=
      List.takeWhile_append_dropWhile
        (p := fun c => decide (c ≠ '.')) (l := dotted.toList)
    have hNot :=
      List.head?_dropWhile_not (fun c => decide (c ≠ '.'))
        dotted.toList
    refine ⟨?_, ?_⟩
    · rw [String.toList_ofList]
      intro hDot
      have hOther := List.mem_takeWhile_imp hDot
      simp at hOther
    · cases hRest : dotted.toList.dropWhile (· ≠ '.') with
      | nil =>
          rw [hRest, List.append_nil] at hSplit
          rw [hSplit]
          exact .inl String.ofList_toList.symm
      | cons c rest =>
          rw [hRest] at hNot hSplit
          obtain rfl : c = '.' := by simpa using hNot
          refine .inr ⟨String.ofList rest, ?_⟩
          rw [← String.toList_inj, String.toList_append,
            String.toList_append, List.append_assoc]
          simpa using hSplit.symm

/- What an item of an import binds. -/
theorem boundName?_eq_some_iff
    {item : Term}
    {x : String} :
    boundName? item = some x ↔ ImportBinds item x := by
  have hFirst :
      boundName?.firstName? item = some x ↔
        ∃ dotted, item.word? "name" = some dotted ∧
          IsFirstComponent x dotted := by
    unfold boundName?.firstName?
    rw [Option.map_eq_some_iff]
    simp only [isFirstComponent_iff]
  unfold boundName? ImportBinds
  cases hOther : item.word? "asname" with
  | none => simp [hFirst]
  | some other =>
      dsimp only
      by_cases hBlank : other = ""
      · subst hBlank
        simp [hFirst]
      · have hSome : other.isEmpty = false := by
          rw [Bool.eq_false_iff, Ne, String.isEmpty_iff]
          exact hBlank
        simp only [hSome, Bool.false_eq_true, if_false,
          Option.some.injEq, forall_eq', hBlank, false_and, or_false]
        constructor
        · rintro rfl
          exact ⟨rfl, hBlank⟩
        · exact fun h => h.1

/- A node with a label lies in the outline. -/
theorem lt_of_label
    {i : Nat}
    (hLabel : (o.term i).label ≠ "") :
    i < o.terms.size := by
  by_contra hGe
  apply hLabel
  unfold term
  rw [Array.getElem?_eq_none (Nat.not_lt.mp hGe)]
  rfl

theorem Loads.lt
    {x : String}
    {n : Nat}
    (hLoads : o.Loads x n) :
    n < o.terms.size := by
  apply lt_of_label
  rw [hLoads.1]
  decide

theorem Stores.lt
    {x : String}
    {n : Nat}
    (hStores : o.Stores x n) :
    n < o.terms.size := by
  apply lt_of_label
  rw [hStores.1]
  decide

/- What is found to use a name. -/
theorem usedName?_eq_some_iff
    (hLinked : o.tree.IsLinked)
    {x : String}
    {n u : Nat} :
    o.usedName? n = some (x, u) ↔
      o.Loads x n ∧ o.IsInnermost u n := by
  rw [← enclosingStatement_eq_iff hLinked]
  unfold usedName? Loads
  dsimp only
  split
  · rename_i hName
    simp_all
  · rename_i hOther
    simp_all

/- What is found to be a parameter. -/
theorem parameterName?_eq_some_iff
    {x : String}
    {i d : Nat} :
    o.parameterName? i = some (x, d) ↔
      (o.term d).label = "arg" ∧ (o.term d).word? "arg" = some x ∧
        i = d := by
  unfold parameterName?
  dsimp only
  split
  · rename_i hArg
    rw [Option.map_eq_some_iff]
    constructor
    · rintro ⟨_, hWord, hPair⟩
      cases hPair
      exact ⟨hArg, hWord, rfl⟩
    · rintro ⟨_, hWord, rfl⟩
      exact ⟨x, hWord, rfl⟩
  · rename_i hOther
    constructor
    · intro hNone
      cases hNone
    · rintro ⟨hArg, _, rfl⟩
      exact absurd hArg hOther

/- The labels of definitions and of imports. -/
theorem isDefinition_iff
    {t : Term} :
    t.isDefinition = true ↔
      t.label = "FunctionDef" ∨ t.label = "AsyncFunctionDef" ∨
        t.label = "ClassDef" := by
  unfold Term.isDefinition
  simp

/- The labels of imports. -/
theorem isImport_iff
    {t : Term} :
    t.isImport = true ↔
      t.label = "Import" ∨ t.label = "ImportFrom" := by
  unfold Term.isImport
  simp

/- Definitions lie in the outline, and are nothing else. -/
theorem of_isDefinition
    {d : Nat}
    (hDefinition : (o.term d).isDefinition = true) :
    d < o.terms.size := by
  apply lt_of_label
  rcases isDefinition_iff.mp hDefinition with h | h | h <;>
    simp [h]

/- So do imports, which are no definitions. -/
theorem of_isImport
    {d : Nat}
    (hImport : (o.term d).isImport = true) :
    d < o.terms.size ∧ (o.term d).isDefinition = false := by
  have hLabel := isImport_iff.mp hImport
  constructor
  · apply lt_of_label
    rcases hLabel with h | h <;> simp [h]
  · rw [Bool.eq_false_iff, Ne, isDefinition_iff]
    rcases hLabel with h | h <;> simp [h]

/- Names are neither definitions nor imports. -/
theorem of_label_name
    {t : Term}
    (hName : t.label = "Name") :
    t.isDefinition = false ∧ t.isImport = false := by
  constructor
  · rw [Bool.eq_false_iff, Ne, isDefinition_iff]
    simp [hName]
  · rw [Bool.eq_false_iff, Ne, isImport_iff]
    simp [hName]

theorem mem_definedNames_definition
    {x : String}
    {i d : Nat}
    (hDefinition : (o.term i).isDefinition = true) :
    (x, d) ∈ o.definedNames i ↔
      (o.term i).word? "name" = some x ∧ i = d := by
  unfold definedNames
  dsimp only
  rw [if_pos hDefinition, List.mem_map]
  simp

theorem mem_definedNames_import
    {x : String}
    {i d : Nat}
    (hImport : (o.term i).isImport = true) :
    (x, d) ∈ o.definedNames i ↔
      (∃ item ∈ ((o.term i).part "names").items,
        ImportBinds item x) ∧ i = d := by
  unfold definedNames
  dsimp only
  rw [if_neg (by rw [(of_isImport hImport).2]; exact Bool.noConfusion),
    if_pos hImport, List.mem_map]
  simp [boundName?_eq_some_iff]

theorem mem_definedNames_name
    (hLinked : o.tree.IsLinked)
    {x : String}
    {i d : Nat}
    (hDefinition : (o.term i).isDefinition = false)
    (hImport : (o.term i).isImport = false) :
    (x, d) ∈ o.definedNames i ↔
      o.Stores x i ∧ o.IsInnermost d i := by
  rw [← enclosingStatement_eq_iff hLinked]
  unfold definedNames Stores
  dsimp only
  rw [if_neg (by rw [hDefinition]; exact Bool.noConfusion),
    if_neg (by rw [hImport]; exact Bool.noConfusion)]
  split
  · rename_i hName
    simp_all
  · rename_i hOther
    simp_all

theorem mem_definedNames_iff
    (hLinked : o.tree.IsLinked)
    {x : String}
    {d : Nat} :
    (∃ i ∈ o.indices, (x, d) ∈ o.definedNames i) ↔
      o.Defines x d := by
  unfold indices
  simp only [List.mem_range]
  constructor
  · rintro ⟨i, _, hMem⟩
    by_cases hDefinition : (o.term i).isDefinition = true
    · obtain ⟨hWord, rfl⟩ :=
        (mem_definedNames_definition hDefinition).mp hMem
      exact .inl ⟨hDefinition, hWord⟩
    · by_cases hImport : (o.term i).isImport = true
      · obtain ⟨hBinds, rfl⟩ :=
          (mem_definedNames_import hImport).mp hMem
        exact .inr (.inl ⟨hImport, hBinds⟩)
      · exact .inr (.inr
          ⟨i, (mem_definedNames_name hLinked
            (Bool.eq_false_iff.mpr hDefinition)
            (Bool.eq_false_iff.mpr hImport)).mp hMem⟩)
  · rintro (⟨hDefinition, hWord⟩ | ⟨hImport, hBinds⟩ |
      ⟨n, hStores, hInner⟩)
    · exact ⟨d, of_isDefinition hDefinition,
        (mem_definedNames_definition hDefinition).mpr ⟨hWord, rfl⟩⟩
    · exact ⟨d, (of_isImport hImport).1,
        (mem_definedNames_import hImport).mpr ⟨hBinds, rfl⟩⟩
    · have hName := of_label_name hStores.1
      exact ⟨n, hStores.lt,
        (mem_definedNames_name hLinked hName.1 hName.2).mpr
          ⟨hStores, hInner⟩⟩

/- A use lies in the scope of a parameter. -/
theorem isInScope_iff
    (hLinked : o.tree.IsLinked)
    {d u : Nat} :
    o.isInScope d u = true ↔
      ∃ p, d ∈ o.tree.children p ∧ o.tree.Reaches p u ∧ p ≠ u := by
  unfold isInScope
  rw [Option.any_eq_true]
  simp only [hLinked.isBelow_iff, ← hLinked.linked]
  constructor
  · rintro ⟨p, hParent, hNe, hReaches⟩
    exact ⟨p, hParent, hReaches, hNe⟩
  · rintro ⟨p, hParent, hReaches, hNe⟩
    exact ⟨p, hParent, hNe, hReaches⟩

/- Two nodes are apart if neither of them lies in the other. -/
theorem areApart_iff
    (hLinked : o.tree.IsLinked)
    {d u : Nat} :
    o.areApart d u = true ↔
      u ≠ d ∧ ¬ o.tree.Reaches u d ∧ ¬ o.tree.Reaches d u := by
  unfold areApart
  simp only [Bool.and_eq_true, decide_eq_true_eq,
    Bool.not_eq_true', Bool.eq_false_iff, Ne, hLinked.isBelow_iff]
  constructor
  · rintro ⟨⟨hNe, hud⟩, hdu⟩
    exact
      ⟨fun hSame => hNe hSame.symm,
        fun hReaches => hud ⟨fun hSame => hNe hSame.symm, hReaches⟩,
        fun hReaches => hdu ⟨hNe, hReaches⟩⟩
  · rintro ⟨hNe, hud, hdu⟩
    exact
      ⟨⟨fun hSame => hNe hSame.symm, fun h => hud h.2⟩,
        fun h => hdu h.2⟩

end Outline

end Whittle

------------------------------------------------------------
-- Relations
------------------------------------------------------------

namespace Whittle

namespace Outline

variable {o : Outline}

theorem mem_users_iff
    (hLinked : o.tree.IsLinked)
    {x : String}
    {u : Nat} :
    u ∈ ((o.indices.filterMap o.usedName?).filter
        (·.1 = x)).map (·.2) ↔
      o.Uses x u := by
  unfold Uses indices
  simp only [List.mem_map, List.mem_filter, List.mem_filterMap,
    List.mem_range, decide_eq_true_eq]
  constructor
  · rintro ⟨⟨_, _⟩, ⟨⟨n, _, hUsed⟩, rfl⟩, rfl⟩
    exact ⟨n, (usedName?_eq_some_iff hLinked).mp hUsed⟩
  · rintro ⟨n, hLoads, hInner⟩
    exact
      ⟨(x, u),
        ⟨⟨n, hLoads.lt, (usedName?_eq_some_iff hLinked).mpr
          ⟨hLoads, hInner⟩⟩, rfl⟩, rfl⟩

theorem mem_parameters_iff
    {x : String}
    {d : Nat} :
    (x, d) ∈ o.indices.filterMap o.parameterName? ↔
      (o.term d).label = "arg" ∧ (o.term d).word? "arg" = some x := by
  unfold indices
  simp only [List.mem_filterMap, List.mem_range,
    parameterName?_eq_some_iff]
  constructor
  · rintro ⟨_, _, hLabel, hWord, _⟩
    exact ⟨hLabel, hWord⟩
  · rintro ⟨hLabel, hWord⟩
    exact ⟨d, lt_of_label (by simp [hLabel]), hLabel, hWord, rfl⟩

theorem mem_links_iff
    (hLinked : o.tree.IsLinked)
    {d u : Nat} :
    (d, u) ∈ o.links ↔
      u ≠ d ∧ ¬ o.tree.Reaches u d ∧ ¬ o.tree.Reaches d u ∧
        ∃ x, o.Uses x u ∧
          (o.Defines x d ∨ o.IsParameterFor x d u) := by
  unfold links
  dsimp only
  rw [List.mem_filter, areApart_iff hLinked, List.mem_append,
    List.mem_flatMap, List.mem_flatMap]
  constructor
  · rintro ⟨hMem, hNe, hud, hdu⟩
    refine ⟨hNe, hud, hdu, ?_⟩
    rcases hMem with ⟨⟨x, d'⟩, hDefined, hPair⟩ |
      ⟨⟨x, d'⟩, hParameter, hPair⟩
    · obtain ⟨u', hUser, hSame⟩ := List.mem_map.mp hPair
      cases hSame
      exact
        ⟨x, (mem_users_iff hLinked).mp hUser,
          .inl ((mem_definedNames_iff hLinked).mp
            (List.mem_flatMap.mp hDefined))⟩
    · obtain ⟨u', hUser, hSame⟩ := List.mem_map.mp hPair
      cases hSame
      obtain ⟨hUser, hScope⟩ := List.mem_filter.mp hUser
      obtain ⟨hLabel, hWord⟩ := mem_parameters_iff.mp hParameter
      exact
        ⟨x, (mem_users_iff hLinked).mp hUser,
          .inr ⟨hLabel, hWord, (isInScope_iff hLinked).mp hScope⟩⟩
  · rintro ⟨hNe, hud, hdu, x, hUses, hDefined⟩
    refine ⟨?_, hNe, hud, hdu⟩
    have hUser := (mem_users_iff hLinked).mpr hUses
    rcases hDefined with hDefines | ⟨hLabel, hWord, hScope⟩
    · refine .inl ⟨(x, d), List.mem_flatMap.mpr
        ((mem_definedNames_iff hLinked).mpr hDefines), ?_⟩
      exact List.mem_map.mpr ⟨u, hUser, rfl⟩
    · refine .inr ⟨(x, d),
        mem_parameters_iff.mpr ⟨hLabel, hWord⟩, ?_⟩
      refine List.mem_map.mpr ⟨u, List.mem_filter.mpr ⟨hUser, ?_⟩, rfl⟩
      exact (isInScope_iff hLinked).mpr hScope

/- Nodes that are linked lie in the outline. -/
theorem lt_of_mem_links
    (hLinked : o.tree.IsLinked)
    {d u : Nat}
    (hMem : (d, u) ∈ o.links) :
    d < o.terms.size ∧ u < o.terms.size := by
  obtain ⟨_, _, _, x, ⟨n, hLoads, hInner⟩, hDefined⟩ :=
    (mem_links_iff hLinked).mp hMem
  refine ⟨?_, Nat.lt_of_le_of_lt (hInner.le hLinked) hLoads.lt⟩
  rcases hDefined with
    (⟨hDefinition, _⟩ | ⟨hImport, _⟩ | ⟨m, hStores, hInner'⟩) |
      ⟨hLabel, _⟩
  · exact of_isDefinition hDefinition
  · exact (of_isImport hImport).1
  · exact Nat.lt_of_le_of_lt (hInner'.le hLinked) hStores.lt
  · exact lt_of_label (by simp [hLabel])

theorem mem_insertAt_iff
    (sets : Array (List Nat))
    {i j a b : Nat}
    (hi : i < sets.size) :
    b ∈ ((insertAt sets i j)[a]?).getD [] ↔
      b ∈ (sets[a]?).getD [] ∨ a = i ∧ b = j := by
  unfold insertAt
  rw [Array.getElem?_modify]
  by_cases ha : a = i
  · subst ha
    rw [if_pos rfl, Array.getElem?_eq_getElem hi]
    simp only [Option.map_some, Option.getD_some, true_and]
    split
    · rename_i hContains
      rw [List.contains_iff_mem] at hContains
      constructor
      · exact .inl
      · rintro (hb | rfl)
        · exact hb
        · exact hContains
    · rw [List.mem_append, List.mem_singleton]
  · rw [if_neg (Ne.symm ha)]
    simp [ha]

theorem size_insertAt
    (sets : Array (List Nat))
    (i j : Nat) :
    (insertAt sets i j).size = sets.size :=
  Array.size_modify ..

/-
  What is in the sets after pairs have been put into them one
  by one, both ways.
-/
theorem mem_foldl_insertAt
    {pairs : List (Nat × Nat)}
    {r : Relations}
    (hBounds : ∀ p ∈ pairs,
      p.1 < r.dependents.size ∧ p.2 < r.dependencies.size)
    (d u : Nat) :
    let r' :=
      pairs.foldl
        (fun r (d, u) =>
          ⟨insertAt r.dependents d u,
            insertAt r.dependencies u d⟩) r
    (u ∈ r'.dependentsOf d ↔
        u ∈ r.dependentsOf d ∨ (d, u) ∈ pairs) ∧
      (d ∈ r'.dependenciesOf u ↔
        d ∈ r.dependenciesOf u ∨ (d, u) ∈ pairs) := by
  induction pairs generalizing r with
  | nil => simp
  | cons pair rest ih =>
      obtain ⟨d', u'⟩ := pair
      obtain ⟨hd', hu'⟩ := hBounds (d', u') List.mem_cons_self
      have hRest := ih
        (r := ⟨insertAt r.dependents d' u',
          insertAt r.dependencies u' d'⟩)
        (by
          intro p hp
          rw [size_insertAt, size_insertAt]
          exact hBounds p (List.mem_cons_of_mem _ hp))
      rw [List.foldl_cons]
      refine ⟨hRest.1.trans ?_, hRest.2.trans ?_⟩
      · unfold Relations.dependentsOf
        rw [mem_insertAt_iff _ hd', List.mem_cons, Prod.mk.injEq,
          or_assoc]
      · unfold Relations.dependenciesOf
        rw [mem_insertAt_iff _ hu', List.mem_cons, Prod.mk.injEq,
          or_assoc, and_comm (a := u = u')]

theorem mem_relations_iff
    (hLinked : o.tree.IsLinked)
    (d u : Nat) :
    (u ∈ o.relations.dependentsOf d ↔ (d, u) ∈ o.links) ∧
      (d ∈ o.relations.dependenciesOf u ↔ (d, u) ∈ o.links) := by
  have hBounds :
      ∀ p ∈ o.links,
        p.1 < (Array.replicate o.terms.size ([] : List Nat)).size ∧
          p.2 <
            (Array.replicate o.terms.size ([] : List Nat)).size := by
    intro p hp
    rw [Array.size_replicate]
    exact lt_of_mem_links hLinked hp
  obtain ⟨hDependents, hDependencies⟩ :=
    mem_foldl_insertAt
      (r := ⟨.replicate o.terms.size [],
        .replicate o.terms.size []⟩) hBounds d u
  have hBlank :
      ∀ a b : Nat,
        b ∉ ((Array.replicate o.terms.size
          ([] : List Nat))[a]?).getD [] := by
    intro a b
    rw [Array.getElem?_replicate]
    split <;> simp
  exact
    ⟨hDependents.trans (or_iff_right (hBlank d u)),
      hDependencies.trans (or_iff_right (hBlank u d))⟩

/-
  The relations between the nodes of the tree of a term go
  both ways, and hold exactly between nodes apart from each
  other of which one uses a name, or is the innermost
  statement around a use, and the other one defines it, or is
  a parameter of that name whose parent the user lies in.  So
  nothing is lost if a name has several definitions, or
  several uses, or is both a parameter and defined.
-/
theorem relations_iff
    (name : String)
    (text : Text)
    (whole : Term)
    (d u : Nat) :
    let o := ofTerm name text whole
    (u ∈ o.relations.dependentsOf d ↔
        d ∈ o.relations.dependenciesOf u) ∧
      (u ∈ o.relations.dependentsOf d ↔
        u ≠ d ∧ ¬ o.tree.Reaches u d ∧ ¬ o.tree.Reaches d u ∧
          ∃ x, o.Uses x u ∧
            (o.Defines x d ∨ o.IsParameterFor x d u)) := by
  intro o
  have hLinked : o.tree.IsLinked :=
    (isLinked_ofTerm name text whole).1
  obtain ⟨hDependents, hDependencies⟩ := mem_relations_iff hLinked d u
  exact
    ⟨hDependents.trans hDependencies.symm,
      hDependents.trans (mem_links_iff hLinked)⟩

end Outline

end Whittle
