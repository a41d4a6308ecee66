import Whittle.Proofs.Tree.Kinship
import Whittle.Term.Links

/-
  How the tree of a term grows.

  Key definitions include:
    * `Outline.grown`
    * `Outline.IsGrown`

  Main statements:
    * `Outline.IsKept.grown`
    * `Outline.isGrown_grown`

  An outline only grows by nodes that are pushed below nodes
  it has.  So whatever holds of the node of the whole text and
  is kept by a push holds of a whole outline.
-/

------------------------------------------------------------
-- Growing By Pushes
------------------------------------------------------------

namespace Whittle

namespace Outline

variable {ls : Array Text}

theorem size_push
    (ls : Array Text)
    (o : Outline)
    (parent : Nat)
    (t : Term)
    (e : Extent) :
    (o.push ls parent t e).tree.size = o.tree.size + 1 :=
  Tree.size_add _ _ _ _ _

/- A property that is kept by every push below a node. -/
def IsKept
    (ls : Array Text)
    (P : Outline → Prop) : Prop :=
  ∀ {o : Outline} {parent : Nat} {t : Term} {e : Extent},
    P o → parent < o.tree.size → t.extent? = some e →
      P (o.push ls parent t e)

/-
  A property holds of what an outline that has a parent has
  grown to, which has the parent too.
-/
def Keeps
    (P : Outline → Prop)
    (parent : Nat)
    (o o' : Outline) : Prop :=
  P o → parent < o.tree.size → P o' ∧ parent < o'.tree.size

theorem Keeps.trans
    {P : Outline → Prop}
    {parent : Nat}
    {o o' o'' : Outline}
    (hFirst : Keeps P parent o o')
    (hNext : Keeps P parent o' o'') :
    Keeps P parent o o'' :=
  fun hP hParent =>
    have ⟨hP', hParent'⟩ := hFirst hP hParent
    hNext hP' hParent'

/- A push of a node keeps what every push keeps. -/
theorem IsKept.push
    {P : Outline → Prop}
    (hPush : IsKept ls P)
    {o : Outline}
    {parent : Nat}
    {t : Term}
    {e : Extent}
    (hExtent : t.extent? = some e) :
    Keeps P parent o (o.push ls parent t e) := by
  intro hP hParent
  refine ⟨hPush hP hParent hExtent, ?_⟩
  rw [size_push]
  exact Nat.lt_succ_of_lt hParent

/-
  What every push keeps is kept when the nodes of a term, of
  the parts of a term, or of several terms are appended.
-/
theorem IsKept.grow
    {P : Outline → Prop}
    (hPush : IsKept ls P) :
    (∀ parent o t, Keeps P parent o (grow ls parent o t)) ∧
      (∀ parent o ps,
        Keeps P parent o (growParts ls parent o ps)) ∧
      (∀ parent o ts, Keeps P parent o (growAll ls parent o ts)) := by
  have hSame : ∀ parent o, Keeps P parent o o :=
    fun _ _ hP hParent => ⟨hP, hParent⟩
  refine grow.mutual_induct ls
    (fun parent o t => Keeps P parent o (Outline.grow ls parent o t))
    (fun parent o ps => Keeps P parent o (growParts ls parent o ps))
    (fun parent o ts => Keeps P parent o (growAll ls parent o ts))
    ?blank ?word ?several ?flatAtomic ?flat ?nodeAtomic ?node
    ?noItems ?items ?noParts ?parts
  case blank => exact fun parent o => hSame parent o
  case word => exact fun parent o _ => hSame parent o
  case several =>
    intro parent o items ih
    rwa [Outline.grow]
  case flatAtomic =>
    intro parent o label parts hAtomic
    rw [Outline.grow, if_pos hAtomic]
    exact hSame parent o
  case flat =>
    intro parent o label parts hAtomic ih
    rwa [Outline.grow, if_neg hAtomic]
  case nodeAtomic =>
    intro parent o label e parts t hAtomic
    rw [Outline.grow, if_pos hAtomic]
    exact hPush.push rfl
  case node =>
    intro parent o label e parts t grown hAtomic ih
    rw [Outline.grow, if_neg hAtomic]
    intro hP hParent
    have hNew : o.tree.size < grown.tree.size := by
      rw [size_push]
      exact Nat.lt_succ_self _
    obtain ⟨hP', hParent'⟩ := ih (hPush hP hParent rfl) hNew
    exact ⟨hP', Nat.lt_trans hParent hParent'⟩
  case noItems => exact fun parent o => hSame parent o
  case items =>
    intro parent o t rest ihFirst ihRest
    exact ihFirst.trans ihRest
  case noParts => exact fun parent o => hSame parent o
  case parts =>
    intro parent o name t rest ihFirst ihRest
    exact ihFirst.trans ihRest

/- The outline of a term before its tree is settled. -/
def grown
    (name : String)
    (text : Text)
    (whole : Term) : Outline :=
  growParts text.lines.toArray 0 (start name whole) whole.parts

/- Only the tree of an outline is changed when it is settled. -/
theorem ofTerm_eq
    (name : String)
    (text : Text)
    (whole : Term) :
    ofTerm name text whole =
      { grown name text whole with
        tree := (grown name text whole).tree.settle } :=
  rfl

/- What holds of an outline that has grown. -/
theorem IsKept.grown
    {P : Outline → Prop}
    {name : String}
    {text : Text}
    {whole : Term}
    (hPush : IsKept text.lines.toArray P)
    (hStart : P (start name whole)) :
    P (grown name text whole) :=
  (hPush.grow.2.1 0 _ _ hStart Nat.zero_lt_one).1

end Outline

end Whittle

------------------------------------------------------------
-- Outlines That Have Grown
------------------------------------------------------------

namespace Whittle

namespace Outline

variable {ls : Array Text}

/-
  An outline whose tree has been linked node by node.
    * `matched` : there is a term for each node.
    * `made` : each node but the first has been made from its
      term, which has an extent.
    * `first` : the span of the first node is made up.
    * `visited` : children stand in the order of their visits.
-/
structure IsGrown
    (ls : Array Text)
    (o : Outline) : Prop where
  linked : o.tree.IsLinked
  matched : o.terms.size = o.tree.size
  made : ∀ i, 0 < i → i < o.tree.size →
    o.tree.kind i = (o.term i).label ∧
      o.tree.image i = (o.term i).image? ∧
      ∃ e, (o.term i).extent? = some e ∧
        o.tree.span i = e.span ls
  some : 0 < o.tree.size
  first : o.tree.span 0 = .ofNumbers 1 1 1 1
  visited : ∀ p, (o.tree.children p).Pairwise (· < ·)

/- The outline of the whole text only. -/
theorem isGrown_start
    (name : String)
    (whole : Term) :
    IsGrown ls (start name whole) where
  linked := Tree.isLinked_single 0 name "Module" _
  matched := rfl
  made i hPos hLt := by
    have hOne : i < 1 := hLt
    omega
  some := Nat.zero_lt_one
  first := rfl
  visited p := by
    rw [show (start name whole).tree.children p = [] from
      (Tree.children_pushEntry _ _ _ p).trans
        (Tree.children_eq_nil (Nat.zero_le p))]
    exact List.Pairwise.nil

/- The terms of an outline that a node is pushed to. -/
theorem term_push
    (o : Outline)
    (parent : Nat)
    (t : Term)
    (e : Extent)
    (i : Nat) :
    (o.push ls parent t e).term i =
      if i = o.terms.size then t else o.term i := by
  unfold term push
  dsimp only
  rw [Array.getElem?_push]
  split <;> rfl

/- A push keeps all this. -/
theorem isKept_isGrown :
    IsKept ls (IsGrown ls) := by
  intro o parent t e hGrown hParent hExtent
  have hTree :
      (o.push ls parent t e).tree =
        (o.tree.add t.label (e.span ls) (.some (o.tree.node parent))
          t.image?).2 :=
    rfl
  have hEntry :=
    Tree.entry_add t.label (e.span ls) t.image? hParent
  rw [← hTree] at hEntry
  have hSize := size_push ls o parent t e
  refine
    { linked := ?_
      matched := ?_
      made := ?_
      some := ?_
      first := ?_
      visited := ?_ }
  · rw [hTree]
    exact hGrown.linked.add _ _ _ hParent
  · rw [hSize, ← hGrown.matched]
    exact Array.size_push _
  · intro i hPos hLt
    unfold Tree.kind Tree.image Tree.span
    rw [hEntry, term_push, hGrown.matched]
    by_cases hNew : i = o.tree.size
    · rw [if_pos hNew, if_pos hNew]
      exact ⟨rfl, rfl, e, hExtent, rfl⟩
    · rw [if_neg hNew, if_neg hNew]
      have hMade := hGrown.made i hPos (by omega)
      split
      · rename_i hi
        subst hi
        exact hMade
      · exact hMade
  · rw [hSize]
    exact Nat.succ_pos _
  · have hSome := hGrown.some
    have hFirst := hGrown.first
    unfold Tree.span at hFirst ⊢
    rw [hEntry, if_neg (by omega)]
    split
    · rename_i hi
      subst hi
      exact hFirst
    · exact hFirst
  · intro p
    rw [hTree, Tree.children_add _ _ _ hParent]
    split
    · refine List.pairwise_append.mpr
        ⟨hGrown.visited p, List.pairwise_singleton _ _, ?_⟩
      intro a ha b hb
      obtain rfl := List.mem_singleton.mp hb
      exact (hGrown.linked.above ha).2
    · exact hGrown.visited p

/- The outline of a term has been linked node by node. -/
theorem isGrown_grown
    (name : String)
    (text : Text)
    (whole : Term) :
    IsGrown text.lines.toArray (grown name text whole) :=
  isKept_isGrown.grown (isGrown_start name whole)

end Outline

end Whittle
