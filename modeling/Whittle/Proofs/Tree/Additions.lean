import Mathlib.Data.List.Induction
import Whittle.Proofs.Tree.Walk

/-
  Arenas after any additions, refused ones included.

  Key definitions include:
    * `Addition`
    * `Tree.extend`
    * `Tree.extendAll`
    * `Tree.Records`
    * `Tree.IsShiftedTo`

  Main statements:
    * `Tree.extend_eq_ok_iff`
    * `Tree.extend_eq_foreignParent_iff`
    * `Tree.records_extendAll`
    * `Tree.extend_refused_iff`

  An addition that is refused because of a foreign parent has
  appended an entry already, but no parent entry.  The parent
  entries of all nodes that are added later lie before their
  nodes then, and nothing puts them right again.
-/

------------------------------------------------------------
-- Additions
------------------------------------------------------------

namespace Whittle

/- What a tree is asked to add. -/
structure Addition where
  kind : String
  span : Span
  parent : Option NodeId
  image : Option String
deriving DecidableEq, Repr, Inhabited

/- The parent of an addition is not in the tree of an identity. -/
def Addition.isForeign
    (identity : Nat)
    (a : Addition) : Bool :=
  a.parent.any fun p => p.tree ≠ identity

/- The parent of an addition as it is remembered. -/
def Addition.parentIndex
    (a : Addition) : Option Nat :=
  a.parent.map NodeId.index

/- The kind, the image and the span of a node. -/
structure Label where
  kind : String
  image : Option String
  span : Span
deriving DecidableEq, Repr, Inhabited

/- What an addition says of its node. -/
def Addition.label
    (a : Addition) : Label :=
  ⟨a.kind, a.image, a.span⟩

namespace Tree

/- What a tree says of a node. -/
def label
    (t : Tree)
    (i : Nat) : Label :=
  ⟨t.kind i, t.image i, t.span i⟩

/- Add a node to a tree. -/
def extend
    (t : Tree)
    (a : Addition) : Except TreeError Nat × Tree :=
  t.add a.kind a.span a.parent a.image

/- A tree after additions, whatever came of each. -/
def extendAll
    (t : Tree)
    (as : List Addition) : Tree :=
  as.foldl (fun t a => (t.extend a).2) t

end Tree

end Whittle

------------------------------------------------------------
-- One Addition
------------------------------------------------------------

namespace Whittle

namespace Tree

variable (t : Tree) (a : Addition)

theorem size_extend :
    (t.extend a).2.size = t.size + 1 :=
  size_add t _ _ _ _

/- An addition leaves a tree its identity. -/
theorem identity_extend :
    (t.extend a).2.identity = t.identity :=
  identity_add t _ _ _ _

/- What an addition gives children to. -/
theorem children_extend
    (q : Nat) :
    (t.extend a).2.children q =
      if a.parent = some (t.node q) ∧ q ≤ t.size then
        t.children q ++ [t.size]
      else
        t.children q :=
  children_add_eq t _ _ _ _ q

/- An addition has a place, and the parent it names is there. -/
theorem extend_eq_ok_iff
    {i : Nat} :
    (t.extend a).1 = .ok i ↔
      i = t.size ∧
        ∀ p ∈ a.parent, p.tree = t.identity ∧ p.index ≤ t.size := by
  have hGrown :
      (t.pushEntry a.kind a.span a.image).size = t.size + 1 :=
    Array.size_push _
  unfold extend add
  dsimp only
  rw [hGrown]
  cases a.parent with
  | none => simp [eq_comm]
  | some p =>
      dsimp only
      by_cases hTree : p.tree = t.identity
      · rw [if_neg fun hNe => hNe hTree]
        by_cases hIndex : p.index < t.size + 1
        · have hLe : p.index ≤ t.size := by omega
          rw [if_pos hIndex]
          simp [eq_comm, hTree, hLe]
        · have hGt : ¬ p.index ≤ t.size := by omega
          rw [if_neg hIndex]
          simp [hGt]
      · rw [if_pos hTree]
        simp [hTree]

/- An addition is refused because its parent is foreign. -/
theorem extend_eq_foreignParent_iff :
    (t.extend a).1 = .error .foreignParent ↔
      a.isForeign t.identity = true := by
  unfold extend add Addition.isForeign
  cases a.parent with
  | none => simp
  | some p =>
      dsimp only
      by_cases hTree : p.tree = t.identity
      · rw [if_neg fun hNe => hNe hTree]
        split <;> simp [hTree]
      · rw [if_pos hTree]
        simp [hTree]

/- The parent of an addition is remembered unless it is foreign. -/
theorem parents_extend :
    (t.extend a).2.parents =
      if a.isForeign t.identity then t.parents
      else t.parents.push a.parentIndex :=
  parents_add_eq t _ _ _ _

/- A child more does not change what is said of a node. -/
theorem label_modify
    (p index i : Nat) :
    (t.modify p fun e =>
      { e with children := e.children ++ [index] }).label i =
      t.label i := by
  unfold label kind image span entry modify
  dsimp only
  rw [Array.getElem?_modify]
  split
  · cases t.entries[i]? <;> rfl
  · rfl

/- The entry of a node that is appended says what it is given. -/
theorem label_pushEntry
    (i : Nat) :
    (t.pushEntry a.kind a.span a.image).label i =
      if i = t.size then a.label else t.label i := by
  have hEntry :
      (t.pushEntry a.kind a.span a.image).entries[i]? =
        if i = t.size then some ⟨a.kind, a.image, a.span, []⟩
        else t.entries[i]? :=
    Array.getElem?_push
  unfold label kind image span entry
  rw [hEntry]
  split <;> rfl

/- An addition is written down, and leaves what was written. -/
theorem label_extend
    (i : Nat) :
    (t.extend a).2.label i =
      if i = t.size then a.label else t.label i := by
  have hPushed := label_pushEntry t a i
  unfold extend add
  cases a.parent with
  | none => exact hPushed
  | some p =>
      dsimp only
      split
      · exact hPushed
      · split
        · exact (label_modify _ p.index t.size i).trans hPushed
        · exact hPushed

end Tree

end Whittle

------------------------------------------------------------
-- All Additions
------------------------------------------------------------

namespace Whittle

namespace Tree

theorem extendAll_concat
    (t : Tree)
    (as : List Addition)
    (a : Addition) :
    t.extendAll (as ++ [a]) = ((t.extendAll as).extend a).2 := by
  rw [extendAll, List.foldl_concat]
  rfl

/-
  What is in an arena that has been empty before additions.
    * `size`, `labels` : there is an entry for each addition.
    * `children` : a node has those additions as children that
      have named it, except before it was there.
    * `parents` : there is a parent entry for each addition
      that did not name a foreign parent.
-/
structure Records
    (t : Tree)
    (as : List Addition) : Prop where
  size : t.size = as.length
  labels : ∀ i (hi : i < as.length), t.label i = as[i].label
  children : ∀ q, t.children q =
    (List.range as.length).filter fun i =>
      (as[i]?.bind Addition.parent) = some (t.node q) ∧ q ≤ i
  parents : t.parents.toList =
    (as.filter fun a => !a.isForeign t.identity).map
      Addition.parentIndex

variable {t : Tree} {as : List Addition}

theorem Records.children_concat
    (hRecords : t.Records as)
    (a : Addition)
    (q : Nat) :
    (t.extend a).2.children q =
      (List.range (as ++ [a]).length).filter fun i =>
        ((as ++ [a])[i]?.bind Addition.parent) =
          some (t.node q) ∧ q ≤ i := by
  -- the additions before are the same, and name the same nodes
  have hBefore :
      ((List.range as.length).filter fun i =>
        ((as ++ [a])[i]?.bind Addition.parent) =
          some (t.node q) ∧ q ≤ i) = t.children q := by
    rw [hRecords.children]
    refine List.filter_congr fun i hi => ?_
    rw [List.getElem?_append_left (List.mem_range.mp hi)]
  have hLast :
      (as ++ [a])[as.length]?.bind Addition.parent = a.parent := by
    rw [List.getElem?_concat_length]
    rfl
  rw [children_extend, List.length_append, List.length_singleton,
    List.range_succ, List.filter_append, hBefore,
    List.filter_singleton, hLast, hRecords.size]
  by_cases hNamed : a.parent = some (t.node q) ∧ q ≤ as.length
  · simp [hNamed]
  · simp [hNamed]

/- An arena records one addition more. -/
theorem Records.extend
    (hRecords : t.Records as)
    (a : Addition) :
    (t.extend a).2.Records (as ++ [a]) := by
  have hSize := hRecords.size
  constructor
  · rw [size_extend, hSize, List.length_append, List.length_singleton]
  · intro i hi
    rw [List.length_append, List.length_singleton] at hi
    rw [label_extend]
    by_cases hLast : i = t.size
    · rw [if_pos hLast, List.getElem_append_right (by omega)]
      simp
    · rw [if_neg hLast, List.getElem_append_left (by omega)]
      exact hRecords.labels i (by omega)
  · intro q
    have hNode : (t.extend a).2.node q = t.node q :=
      congrArg (NodeId.mk · q) (identity_extend t a)
    rw [hNode]
    exact hRecords.children_concat a q
  · rw [parents_extend, identity_extend, List.filter_append,
      List.map_append, ← hRecords.parents, List.filter_singleton]
    cases a.isForeign t.identity <;> simp

/- An arena that has been empty records all that it is asked. -/
theorem records_extendAll
    (identity : Nat)
    (name : String)
    (as : List Addition) :
    ((empty identity name).extendAll as).Records as := by
  induction as using List.reverseRecOn with
  | nil =>
      refine ⟨rfl, fun i hi => absurd hi (Nat.not_lt_zero i), ?_, rfl⟩
      exact fun q => children_eq_nil (Nat.zero_le q)
  | append_singleton as a ih =>
      rw [extendAll_concat]
      exact ih.extend a

/- Additions leave a tree its identity. -/
theorem identity_extendAll
    (t : Tree)
    (as : List Addition) :
    (t.extendAll as).identity = t.identity := by
  induction as using List.reverseRecOn with
  | nil => rfl
  | append_singleton as a ih =>
      rw [extendAll_concat, identity_extend, ih]

theorem extendAll_append
    (t : Tree)
    (as more : List Addition) :
    t.extendAll (as ++ more) = (t.extendAll as).extendAll more :=
  List.foldl_append

end Tree

end Whittle

------------------------------------------------------------
-- Refused Additions
------------------------------------------------------------

namespace Whittle

namespace Tree

/-
  A tree is another one with an entry put in at an index that
  no parent entry goes with.
    * `size` : there is one node more.
    * `before`, `after` : the nodes from the index on have
      moved on by one.
    * `parents` : the parent entries have not moved.
-/
structure IsShiftedTo
    (u u' : Tree)
    (k : Nat) : Prop where
  size : u'.size = u.size + 1
  before : ∀ i < k, u'.label i = u.label i
  after : ∀ i, k ≤ i → i < u.size → u'.label (i + 1) = u.label i
  parents : u'.parents = u.parents

variable {t u u' : Tree} {as : List Addition}

theorem Records.size_parents_le
    (hRecords : t.Records as) :
    t.parents.size ≤ t.size := by
  rw [← Array.length_toList, hRecords.parents, hRecords.size,
    List.length_map]
  exact List.length_filter_le _ _

/- The last node of a shifted tree has lost its parent entry. -/
theorem IsShiftedTo.parentEntry_last
    {k : Nat}
    (hShifted : u.IsShiftedTo u' k)
    (hParents : u.parents.size ≤ u.size) :
    u'.parentEntry u.size = .error .noSuchNode := by
  unfold parentEntry
  rw [hShifted.parents, Array.getElem?_eq_none hParents]

theorem walkStack_congr
    (hSame : ∀ q, u'.children q = u.children q)
    (fuel : Nat)
    (stack : List Nat) :
    u'.walkStack fuel stack = u.walkStack fuel stack := by
  induction fuel generalizing stack with
  | zero => rfl
  | succ fuel ih =>
      cases stack with
      | nil => rfl
      | cons i rest => rw [walkStack, walkStack, hSame, ih]

/- A place that is found is found in a greater tree as well. -/
theorem childIndex_of_le
    (hSize : u.size ≤ u'.size)
    (hParents : ∀ i, u'.parentEntry i = u.parentEntry i)
    (hChildren : ∀ q, u'.children q = u.children q)
    {i k : Nat}
    (hPlace : u.childIndex i = .ok k) :
    u'.childIndex i = .ok k := by
  unfold childIndex at hPlace ⊢
  rw [hParents]
  cases hEntry : u.parentEntry i with
  | error e =>
      rw [hEntry] at hPlace
      cases hPlace
  | ok parent =>
      rw [hEntry] at hPlace
      cases parent with
      | none => exact hPlace
      | some p =>
          dsimp only at hPlace ⊢
          by_cases hp : p < u.size
          · rw [if_pos hp] at hPlace
            rw [if_pos (Nat.lt_of_lt_of_le hp hSize), hChildren]
            exact hPlace
          · rw [if_neg hp] at hPlace
            cases hPlace

variable {before after : List Addition} {a : Addition}

/- An addition with a foreign parent leaves an entry behind. -/
theorem isShiftedTo_of_isForeign
    (hIdentity : u'.identity = u.identity)
    (hRecords : u.Records (before ++ after))
    (hRecords' : u'.Records (before ++ a :: after))
    (hForeign : a.isForeign u.identity = true) :
    u.IsShiftedTo u' before.length := by
  have hSize : u.size = before.length + after.length := by
    rw [hRecords.size, List.length_append]
  have hSize' : u'.size = u.size + 1 := by
    rw [hRecords'.size, hSize, List.length_append, List.length_cons,
      Nat.add_assoc]
  have hAll : ∀ i, i < u.size → i < (before ++ after).length :=
    fun i hi => hRecords.size ▸ hi
  have hAll' : ∀ i, i < u'.size → i < (before ++ a :: after).length :=
    fun i hi => hRecords'.size ▸ hi
  refine ⟨hSize', ?_, ?_, ?_⟩
  · intro i hi
    rw [hRecords'.labels i (hAll' i (by omega)),
      hRecords.labels i (hAll i (by omega)),
      List.getElem_append_left hi, List.getElem_append_left hi]
  · intro i hLe hi
    obtain ⟨j, rfl⟩ := Nat.exists_eq_add_of_le hLe
    rw [hRecords'.labels _ (hAll' _ (by omega)),
      hRecords.labels _ (hAll _ hi),
      List.getElem_append_right (by omega),
      List.getElem_append_right (by omega)]
    simp only [Nat.add_assoc, Nat.add_sub_cancel_left,
      List.getElem_cons_succ]
  · rw [← Array.toList_inj, hRecords.parents, hRecords'.parents,
      hIdentity, List.filter_append, List.filter_append,
      List.filter_cons_of_neg (by simp [hForeign])]

/- An addition with no foreign parent has a parent entry. -/
theorem isForeign_of_isShiftedTo
    {k : Nat}
    (hIdentity : u'.identity = u.identity)
    (hRecords : u.Records (before ++ after))
    (hRecords' : u'.Records (before ++ a :: after))
    (hShifted : u.IsShiftedTo u' k) :
    a.isForeign u.identity = true := by
  by_contra hOwn
  have hParents := congrArg Array.toList hShifted.parents
  rw [hRecords.parents, hRecords'.parents, hIdentity,
    List.filter_append, List.filter_append,
    List.filter_cons_of_pos (by simpa using hOwn)] at hParents
  have hLength := congrArg List.length hParents
  simp only [List.map_append, List.map_cons, List.length_append,
    List.length_cons] at hLength
  omega

/-
  An addition is refused because of a foreign parent just if
  it leaves an entry behind that no parent entry goes with,
  whatever is added before and after.  From then on the last
  node has no parent entry.  The nodes that were there before
  have the children, the parents, the places and the walks
  that they had.
-/
theorem extend_refused_iff
    (identity : Nat)
    (name : String)
    (before after : List Addition)
    (a : Addition) :
    let t := (empty identity name).extendAll before
    let u := t.extendAll after
    let u' := (t.extend a).2.extendAll after
    ((t.extend a).1 = .error .foreignParent ↔
        u.IsShiftedTo u' t.size) ∧
      ((t.extend a).1 = .error .foreignParent →
        u'.parentEntry u.size = .error .noSuchNode ∧
          (∀ q, (t.extend a).2.children q = t.children q) ∧
          (∀ i, (t.extend a).2.parentEntry i = t.parentEntry i) ∧
          (∀ i k, t.childIndex i = .ok k →
            (t.extend a).2.childIndex i = .ok k) ∧
          ∀ fuel stack, (t.extend a).2.walkStack fuel stack =
            t.walkStack fuel stack) := by
  intro t u u'
  have hRecords : u.Records (before ++ after) := by
    have hAll := records_extendAll identity name (before ++ after)
    rwa [extendAll_append] at hAll
  have hRecords' : u'.Records (before ++ a :: after) := by
    have hAll :=
      records_extendAll identity name (before ++ [a] ++ after)
    rw [extendAll_append, extendAll_concat] at hAll
    rwa [List.append_assoc, List.singleton_append] at hAll
  have hSize : t.size = before.length :=
    (records_extendAll identity name before).size
  have hSame : u.identity = t.identity := identity_extendAll t after
  have hIdentity : u'.identity = u.identity := by
    rw [hSame, ← identity_extend t a]
    exact identity_extendAll _ after
  have hShifted :
      (t.extend a).1 = .error .foreignParent →
        u.IsShiftedTo u' t.size := by
    intro hRefused
    rw [extend_eq_foreignParent_iff, ← hSame] at hRefused
    rw [hSize]
    exact isShiftedTo_of_isForeign hIdentity hRecords hRecords' hRefused
  refine ⟨⟨hShifted, fun h => ?_⟩, fun hRefused => ?_⟩
  · rw [extend_eq_foreignParent_iff, ← hSame]
    exact isForeign_of_isShiftedTo hIdentity hRecords hRecords' h
  · have hForeign := (extend_eq_foreignParent_iff t a).mp hRefused
    have hChildren : ∀ q, (t.extend a).2.children q = t.children q := by
      intro q
      have hNe : a.parent ≠ some (t.node q) := by
        intro hParent
        simp [Addition.isForeign, hParent, node] at hForeign
      rw [children_extend, if_neg fun h => hNe h.1]
    have hParents : (t.extend a).2.parents = t.parents := by
      rw [parents_extend, if_pos hForeign]
    have hEntries :
        ∀ i, (t.extend a).2.parentEntry i = t.parentEntry i := by
      intro i
      unfold parentEntry
      rw [hParents]
    have hMore : t.size ≤ (t.extend a).2.size := by
      rw [size_extend]
      exact Nat.le_succ t.size
    exact ⟨(hShifted hRefused).parentEntry_last
        hRecords.size_parents_le, hChildren, hEntries,
      fun i k => childIndex_of_le hMore hEntries hChildren,
      walkStack_congr hChildren⟩

/- A refused addition leaves a child of the root without parent. -/
theorem extend_refused_iff_small :
    let t := (empty 0 "a").extendAll [⟨"M", default, none, none⟩]
    let a : Addition := ⟨"N", default, some ⟨1, 0⟩, none⟩
    let child : Addition := ⟨"K", default, some ⟨0, 0⟩, none⟩
    (t.extend a).1 = .error .foreignParent ∧
      ((t.extend a).2.extendAll [child]).kind 2 = "K" ∧
      ((t.extend a).2.extendAll [child]).parentEntry 2 =
        .error .noSuchNode := by
  intro t a child
  have hRefused : (t.extend a).1 = .error .foreignParent := rfl
  obtain ⟨hIff, hLeft⟩ :=
    extend_refused_iff 0 "a" [⟨"M", default, none, none⟩] [child] a
  have hLabel := (hIff.mp hRefused).after 1 (Nat.le_refl 1)
    (Nat.lt_succ_self 1)
  exact ⟨hRefused, congrArg Label.kind hLabel, (hLeft hRefused).1⟩

end Tree

end Whittle
