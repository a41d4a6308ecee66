import Whittle.Proofs.Term.Links
import Whittle.Proofs.Term.Sites

/-
  Which statements are found to load a name.

  Key definitions include:
    * `Term.IsModule`
    * `Term.IsInnermostAt`
    * `Term.LoadsAt`
    * `Term.DefinesAt`

  Main statements:
    * `Term.IsModule.mem_sites`
    * `Outline.IsSited.isInnermost_iff`
    * `Outline.IsSited.mentions_iff`
    * `Outline.IsSited.defines_iff`
    * `Outline.dependents_iff_loads`

  What is loaded is said of the term of a text, and what is
  found of the nodes of its tree.  Every name is a node but
  those in the fields of a text, which is looked at as a
  whole.  So just the loads in such fields are overlooked.
-/

------------------------------------------------------------
-- Names In A Term
------------------------------------------------------------

namespace Whittle

namespace Term

/- A statement stands at an address. -/
def IsStatementAt
    (whole : Term)
    (a : Address) : Prop :=
  ∃ t, whole.at? a = some t ∧ t.isStatement = true

instance
    (whole : Term)
    (a : Address) :
    Decidable (whole.IsStatementAt a) :=
  decidable_of_iff ((whole.at? a).any isStatement = true)
    (Option.any_eq_true _ _)

/- The innermost statement around an address stands at another. -/
def IsInnermostAt
    (whole : Term)
    (s a : Address) : Prop :=
  whole.IsStatementAt s ∧ s <+: a ∧
    ∀ c, whole.IsStatementAt c → c <+: a → c <+: s

/- A name stands at an address, where it is loaded or not. -/
def NamesAt
    (whole : Term)
    (isLoaded : Bool)
    (x : String)
    (a : Address) : Prop :=
  ∃ t, whole.at? a = some t ∧ t.label = "Name" ∧
    Outline.isLoad t = isLoaded ∧ t.word? "id" = some x

instance
    (whole : Term)
    (isLoaded : Bool)
    (x : String)
    (a : Address) :
    Decidable (whole.NamesAt isLoaded x a) :=
  decidable_of_iff
    (((whole.at? a).any fun t =>
      decide (t.label = "Name" ∧ Outline.isLoad t = isLoaded ∧
        t.word? "id" = some x)) = true)
    (by simp [NamesAt, Option.any_eq_true])

/-
  A statement is the innermost one around a place where a name
  is loaded, or else stored or deleted, and which lies in no
  field of a text.
-/
def MentionsAt
    (whole : Term)
    (isLoaded : Bool)
    (x : String)
    (s : Address) : Prop :=
  ∃ a, whole.NamesAt isLoaded x a ∧ whole.IsOpenAt a ∧
    whole.IsInnermostAt s a

/- A statement loads a name, not in the field of a text. -/
def LoadsAt
    (whole : Term)
    (x : String)
    (s : Address) : Prop :=
  whole.MentionsAt true x s

/-
  A statement defines a name: it defines a function or a class
  of this name, imports it, or assigns it.
-/
def DefinesAt
    (whole : Term)
    (x : String)
    (d : Address) : Prop :=
  (∃ t, whole.at? d = some t ∧
    ((t.isDefinition = true ∧ t.word? "name" = some x) ∨
      (t.isImport = true ∧
        ∃ item ∈ (t.part "names").items,
          Outline.ImportBinds item x))) ∨
    whole.MentionsAt false x d

/-
  What a parser makes of a whole text.
    * `placed` : statements and names know where they stand.
    * `isClosed` : no statement lies in the fields of a text.
-/
structure IsModule
    (whole : Term) : Prop where
  root : whole.label = "Module"
  placed : ∀ a t, whole.at? a = some t →
    t.isStatement = true ∨ t.label = "Name" →
    t.extent?.isSome = true
  isClosed : ∀ a t b u, whole.at? a = some t → t.isAtomic = true →
    t.at? b = some u → u.isStatement = false

end Term

end Whittle

------------------------------------------------------------
-- Statements And Names Are Nodes
------------------------------------------------------------

namespace Whittle

namespace Term

variable {whole : Term} {a b : Address} {x : String}
variable {isLoaded : Bool}

/- No field of a text lies around a statement. -/
theorem IsModule.isOpenAt
    (hModule : whole.IsModule)
    (hStatement : whole.IsStatementAt a) :
    whole.IsOpenAt a := by
  rintro b u ⟨rest, rfl⟩ - hAt
  rcases hStatement with ⟨t, hStatement, hLabel⟩
  rw [at?_append, hAt, Option.bind_some] at hStatement
  cases hAtomic : u.isAtomic with
  | false => rfl
  | true =>
      rw [hModule.isClosed b u rest t hAt hAtomic hStatement]
        at hLabel
      cases hLabel

theorem IsModule.ne_nil
    (hModule : whole.IsModule)
    {t : Term}
    (hAt : whole.at? a = some t)
    (hLabel : t.isStatement = true ∨ t.label = "Name") :
    a ≠ [] := by
  rintro rfl
  cases hAt
  rw [isStatement, hModule.root] at hLabel
  exact absurd hLabel (by decide)

theorem IsModule.mem_sites
    (hModule : whole.IsModule)
    {t : Term}
    (hAt : whole.at? a = some t)
    (hLabel : t.isStatement = true ∨ t.label = "Name")
    (hOpen : whole.IsOpenAt a) :
    a ∈ Outline.sites whole := by
  rw [Outline.mem_sites_whole hModule.root, isVisible_iff]
  exact .inr ⟨⟨t, hAt, hModule.placed a t hAt hLabel⟩, hOpen⟩

theorem IsStatementAt.mem_sites
    (hModule : whole.IsModule)
    (hStatement : whole.IsStatementAt a) :
    a ∈ Outline.sites whole := by
  have hOpen := hModule.isOpenAt hStatement
  rcases hStatement with ⟨t, hAt, hLabel⟩
  exact hModule.mem_sites hAt (.inl hLabel) hOpen

theorem NamesAt.mem_sites
    (hModule : whole.IsModule)
    (hNames : whole.NamesAt isLoaded x a)
    (hOpen : whole.IsOpenAt a) :
    a ∈ Outline.sites whole := by
  rcases hNames with ⟨t, hAt, hLabel, -⟩
  exact hModule.mem_sites hAt (.inr hLabel) hOpen

/- The names at sites are those that lie in no field of a text. -/
theorem NamesAt.isOpenAt
    (hModule : whole.IsModule)
    (hNames : whole.NamesAt isLoaded x a)
    (hMem : a ∈ Outline.sites whole) :
    whole.IsOpenAt a := by
  rcases hNames with ⟨t, hAt, hLabel, -⟩
  rcases (Outline.mem_sites_whole hModule.root).mp hMem with
    hNil | hVisible
  · exact absurd hNil (hModule.ne_nil hAt (.inr hLabel))
  · exact (isVisible_iff.mp hVisible).2

/- Mentions of names are found among the sites. -/
theorem IsModule.mentionsAt_iff
    (hModule : whole.IsModule)
    {s : Address} :
    whole.MentionsAt isLoaded x s ↔
      ∃ a ∈ Outline.sites whole, whole.NamesAt isLoaded x a ∧
        whole.IsStatementAt s ∧ s <+: a ∧
        ∀ c ∈ Outline.sites whole, whole.IsStatementAt c →
          c <+: a → c <+: s := by
  constructor
  · rintro ⟨a, hNames, hOpen, hStatement, hPrefix, hInner⟩
    exact ⟨a, hNames.mem_sites hModule hOpen, hNames, hStatement,
      hPrefix, fun c _ hc => hInner c hc⟩
  · rintro ⟨a, hMem, hNames, hStatement, hPrefix, hInner⟩
    exact ⟨a, hNames, hNames.isOpenAt hModule hMem, hStatement,
      hPrefix, fun c hc => hInner c (hc.mem_sites hModule) hc⟩

end Term

end Whittle

------------------------------------------------------------
-- Names At Nodes
------------------------------------------------------------

namespace Whittle

namespace Outline

variable {o : Outline} {whole : Term} {x : String}
variable {a s : Address} {i j n : Nat}

/- A node whose site is known. -/
theorem IsSited.exists_site
    (hSited : o.IsSited whole (sites whole))
    (hLt : i < o.terms.size) :
    ∃ a, (sites whole)[i]? = some a := by
  rw [hSited.matched, ← hSited.filled] at hLt
  exact ⟨_, List.getElem?_eq_getElem hLt⟩

/- Nodes lie in the outline. -/
theorem IsSited.lt_size
    (hSited : o.IsSited whole (sites whole))
    (hi : (sites whole)[i]? = some a) :
    i < o.tree.size := by
  rw [← hSited.filled]
  exact (List.getElem?_eq_some_iff.mp hi).1

/- The statements among the nodes. -/
theorem IsSited.isStatement_iff
    (hSited : o.IsSited whole (sites whole))
    (hi : (sites whole)[i]? = some a) :
    (o.term i).isStatement = true ↔ whole.IsStatementAt a := by
  have hAt := hSited.found hi
  constructor
  · exact fun hStatement => ⟨o.term i, hAt, hStatement⟩
  · rintro ⟨t, hAt', hStatement⟩
    rw [hAt, Option.some.injEq] at hAt'
    rw [hAt']
    exact hStatement

/- The innermost statement around a node is that around its site. -/
theorem IsSited.isInnermost_iff
    (hModule : whole.IsModule)
    (hSited : o.IsSited whole (sites whole))
    (hStatement : whole.IsStatementAt s)
    (hj : (sites whole)[j]? = some s)
    (hn : (sites whole)[n]? = some a) :
    o.IsInnermost j n ↔ whole.IsInnermostAt s a := by
  have hNode := (hSited.isStatement_iff hj).mpr hStatement
  constructor
  · rintro (⟨⟨hReaches, -⟩, hInner⟩ | ⟨hNone, rfl⟩)
    · refine ⟨hStatement, (hSited.reaches hj hn).mp hReaches, ?_⟩
      intro c hc hPrefix
      rcases List.mem_iff_getElem?.mp (hc.mem_sites hModule) with
        ⟨v, hv⟩
      exact (hSited.reaches hv hj).mp
        (hInner v ⟨(hSited.reaches hv hn).mpr hPrefix,
          (hSited.isStatement_iff hv).mpr hc⟩)
    · exact absurd ⟨.refl, hNode⟩ (hNone j)
  · rintro ⟨-, hPrefix, hInner⟩
    refine .inl ⟨⟨(hSited.reaches hj hn).mpr hPrefix, hNode⟩, ?_⟩
    rintro v ⟨hReaches, hLabel⟩
    have hLe := hSited.linked.le_of_reaches hReaches
    rcases hSited.exists_site (i := v) (by
      rw [hSited.matched]
      exact Nat.lt_of_le_of_lt hLe (hSited.lt_size hn)) with ⟨c, hv⟩
    exact (hSited.reaches hv hj).mpr
      (hInner c ((hSited.isStatement_iff hv).mp hLabel)
        ((hSited.reaches hv hn).mp hReaches))

/-
  The statement at a node is the innermost one around a name
  just when the node is that around the node of a name.
-/
theorem IsSited.mentions_iff
    (hModule : whole.IsModule)
    (hSited : o.IsSited whole (sites whole))
    (hStatement : whole.IsStatementAt s)
    (hj : (sites whole)[j]? = some s)
    (isLoaded : Bool) :
    (∃ n, ((o.term n).label = "Name" ∧
        isLoad (o.term n) = isLoaded ∧
        (o.term n).word? "id" = some x) ∧
      o.IsInnermost j n) ↔
      whole.MentionsAt isLoaded x s := by
  constructor
  · rintro ⟨n, ⟨hLabel, hLoad, hWord⟩, hInner⟩
    rcases hSited.exists_site (lt_of_label (i := n) (by simp [hLabel]))
      with ⟨a, hn⟩
    have hNames : whole.NamesAt isLoaded x a :=
      ⟨o.term n, hSited.found hn, hLabel, hLoad, hWord⟩
    exact ⟨a, hNames,
      hNames.isOpenAt hModule (List.mem_of_getElem? hn),
      (hSited.isInnermost_iff hModule hStatement hj hn).mp hInner⟩
  · rintro ⟨a, hNames, hOpen, hInner⟩
    rcases List.mem_iff_getElem?.mp (hNames.mem_sites hModule hOpen)
      with ⟨n, hn⟩
    rcases hNames with ⟨t, hAt, hLabel, hLoad, hWord⟩
    have hSame := hSited.found hn
    rw [hAt, Option.some.injEq] at hSame
    rw [hSame] at hLabel hLoad hWord
    exact ⟨n, ⟨hLabel, hLoad, hWord⟩,
      (hSited.isInnermost_iff hModule hStatement hj hn).mpr hInner⟩

/- What a statement defines is what its node defines. -/
theorem IsSited.defines_iff
    (hModule : whole.IsModule)
    (hSited : o.IsSited whole (sites whole))
    (hStatement : whole.IsStatementAt s)
    (hj : (sites whole)[j]? = some s) :
    o.Defines x j ↔ whole.DefinesAt x s := by
  have hAt := hSited.found hj
  have hStores := hSited.mentions_iff (x := x) hModule hStatement hj
    false
  unfold Defines Term.DefinesAt
  rw [← hStores, hAt]
  simp only [Option.some.injEq, exists_eq_left', or_assoc]
  rfl

theorem not_isParameterFor
    (hStatement : (o.term i).isStatement = true) :
    ¬ o.IsParameterFor x i j := by
  rintro ⟨hLabel, -⟩
  rw [Term.isStatement, hLabel] at hStatement
  exact absurd hStatement (by decide)

end Outline

end Whittle

------------------------------------------------------------
-- Loading Statements
------------------------------------------------------------

namespace Whittle

namespace Outline

/-
  Each statement of a text is one node, and nodes lie in each
  other as the terms do that they are made of.  Of statements
  apart from each other, one is found to depend on another one
  just when that defines a name and this is the innermost
  statement around a place where the name is loaded.  No place
  is overlooked but those in the fields of a text that is
  looked at as a whole.
-/
theorem dependents_iff_loads
    (name : String)
    (text : Text)
    {whole : Term}
    (hModule : whole.IsModule) :
    let o := ofTerm name text whole
    o.IsSited whole (sites whole) ∧
      (∀ a, whole.IsStatementAt a →
        ∃! i : Nat, (sites whole)[i]? = some a) ∧
      ∀ (d s : Address) (i j : Nat),
        whole.IsStatementAt d → whole.IsStatementAt s →
        (sites whole)[i]? = some d → (sites whole)[j]? = some s →
        ¬ d <+: s → ¬ s <+: d →
        (j ∈ o.relations.dependentsOf i ↔
          ∃ x, whole.DefinesAt x d ∧ whole.LoadsAt x s) := by
  intro o
  have hSited : o.IsSited whole (sites whole) :=
    isSited_ofTerm name text whole
  refine ⟨hSited, ?_, ?_⟩
  · intro a hStatement
    rcases List.mem_iff_getElem?.mp (hStatement.mem_sites hModule)
      with ⟨i, hi⟩
    exact ⟨i, hi, fun j hj => hSited.eq_of_getElem? hj hi⟩
  · intro d s i j hd hs hi hj hds hsd
    have hReaches : ¬ o.tree.Reaches i j :=
      fun h => hds ((hSited.reaches hi hj).mp h)
    have hReaches' : ¬ o.tree.Reaches j i :=
      fun h => hsd ((hSited.reaches hj hi).mp h)
    have hNe : j ≠ i := by
      rintro rfl
      exact hReaches .refl
    rw [(mem_relations_iff hSited.linked i j).1,
      mem_links_iff hSited.linked]
    have hUses : ∀ x, o.Uses x j ↔ whole.LoadsAt x s :=
      fun x => hSited.mentions_iff hModule hs hj true
    have hDefines : ∀ x, o.Defines x i ↔ whole.DefinesAt x d :=
      fun x => hSited.defines_iff hModule hd hi
    constructor
    · rintro ⟨-, -, -, x, hUse, hDefined | hParameter⟩
      · exact ⟨x, (hDefines x).mp hDefined, (hUses x).mp hUse⟩
      · exact absurd hParameter
          (not_isParameterFor ((hSited.isStatement_iff hi).mpr hd))
    · rintro ⟨x, hDefined, hUse⟩
      exact ⟨hNe, hReaches', hReaches, x, (hUses x).mpr hUse,
        .inl ((hDefines x).mpr hDefined)⟩

/- A name that is loaded, or else stored. -/
def nameTerm
    (line first last : Nat)
    (x context : String) : Term :=
  .node "Name" (some ⟨⟨line, first⟩, ⟨line, last⟩⟩)
    [("id", .word x), ("ctx", .node context none [])]

/- A line on which a thing is printed. -/
def printTerm
    (line last : Nat)
    (thing : Term) : Term :=
  .node "Expr" (some ⟨⟨line, 0⟩, ⟨line, last⟩⟩)
    [("value",
      .node "Call" (some ⟨⟨line, 0⟩, ⟨line, last⟩⟩)
        [("func", nameTerm line 0 5 "print" "Load"),
          ("args", .several [thing])])]

/- A name is assigned, printed in a field and printed. -/
def formatted : Term :=
  .node "Module" none
    [("body",
      .several
        [.node "Assign" (some ⟨⟨1, 0⟩, ⟨1, 5⟩⟩)
            [("targets", .several [nameTerm 1 0 1 "x" "Store"]),
              ("value", .node "Constant" (some ⟨⟨1, 4⟩, ⟨1, 5⟩⟩) [])],
          printTerm 2 13
            (.node "JoinedStr" (some ⟨⟨2, 6⟩, ⟨2, 12⟩⟩)
              [("values",
                .several
                  [.node "FormattedValue" (some ⟨⟨2, 8⟩, ⟨2, 11⟩⟩)
                    [("value", nameTerm 2 9 10 "x" "Load")]])]),
          printTerm 3 8 (nameTerm 3 6 7 "x" "Load")])]

/- The test holds of a term and of all terms in it. -/
def holdsWithin
    (test : Term → Bool) : (fuel : Nat) → Term → Bool
  | 0, _ => false
  | fuel + 1, t => test t && t.subterms.all (holdsWithin test fuel)

/- Such a test holds at each address. -/
theorem of_holdsWithin
    (test : Term → Bool)
    (fuel : Nat)
    {t u : Term}
    {a : Address}
    (hHolds : holdsWithin test fuel t = true)
    (hAt : t.at? a = some u) :
    test u = true := by
  induction fuel generalizing t a with
  | zero => cases hHolds
  | succ fuel ih =>
      rw [holdsWithin, Bool.and_eq_true, List.all_eq_true] at hHolds
      cases a with
      | nil =>
          cases hAt
          exact hHolds.1
      | cons k a =>
          rw [Term.at?, Option.bind_eq_some_iff] at hAt
          rcases hAt with ⟨v, hGet, hAt⟩
          exact ih (hHolds.2 v (List.mem_of_getElem? hGet)) hAt

/- The term is what a parser makes of a text. -/
theorem isModule_formatted :
    formatted.IsModule where
  root := rfl
  placed a t hAt hLabel := by
    have hTest := of_holdsWithin
      (fun t =>
        !(t.isStatement || t.label = "Name") || t.extent?.isSome)
      12 (by decide +kernel) hAt
    rcases hLabel with hLabel | hLabel
    · simpa [hLabel] using hTest
    · simpa [hLabel] using hTest
  isClosed a t b u hAt hAtomic hInside := by
    have hTest := of_holdsWithin
      (fun t => !t.isAtomic || holdsWithin (!·.isStatement) 12 t)
      12 (by decide +kernel) hAt
    have hWithin : holdsWithin (!·.isStatement) 12 t = true := by
      simpa [hAtomic] using hTest
    simpa using of_holdsWithin _ _ hWithin hInside

/-
  The line that prints the name is found to load it, and the
  line that prints it in a field is not.
-/
theorem dependents_iff_loads_formatted :
    let text : Text := "x = 1\nprint(f'\x7bx\x7d')\nprint(x)\n".toList
    let o := ofTerm "a" text formatted
    formatted.IsModule ∧
      formatted.DefinesAt "x" [0, 0] ∧
      formatted.LoadsAt "x" [0, 2] ∧
      8 ∈ o.relations.dependentsOf 1 ∧
      formatted.NamesAt true "x" [0, 1, 0, 1, 0, 0, 0, 0] ∧
      ¬ formatted.LoadsAt "x" [0, 1] := by
  intro text o
  obtain ⟨-, -, hFound⟩ :=
    dependents_iff_loads "a" text isModule_formatted
  have hLoads := hFound [0, 0] [0, 2] 1 8 (by decide) (by decide)
    (by decide +kernel) (by decide +kernel) (by decide) (by decide)
  have hDefines : formatted.DefinesAt "x" [0, 0] :=
    .inr (isModule_formatted.mentionsAt_iff.mpr (by decide +kernel))
  have hLoad : formatted.LoadsAt "x" [0, 2] :=
    isModule_formatted.mentionsAt_iff.mpr (by decide +kernel)
  have hNone : ¬ formatted.LoadsAt "x" [0, 1] := fun h =>
    absurd (isModule_formatted.mentionsAt_iff.mp h)
      (by decide +kernel)
  exact
    ⟨isModule_formatted, hDefines, hLoad,
      hLoads.mpr ⟨"x", hDefines, hLoad⟩, by decide, hNone⟩

end Outline

end Whittle
