import Whittle.Proofs.Term.Address
import Whittle.Proofs.Term.Settling

/-
  The nodes of an outline and their places in the term.

  Key definitions include:
    * `Outline.IsSited`
    * `Outline.IsFresh`
    * `Outline.sites`

  Main statements:
    * `Outline.IsSited.push`
    * `Outline.isSited_grow`
    * `Outline.isSited_ofTerm`
    * `Outline.mem_sites_whole`

  While an outline grows, the walk stands at an address that
  no site lies at or below, and the sites above it are those
  above the parent.  So a node that is pushed comes below just
  the nodes whose addresses its own address goes on from.
-/

------------------------------------------------------------
-- Sited Outlines
------------------------------------------------------------

namespace Whittle

namespace Outline

/-
  The nodes of an outline are made of the terms at some sites.
    * `filled` : there is a site for each node.
    * `found` : the term of a node stands at its site.
    * `reaches` : nodes lie in each other as their sites do.
-/
structure IsSited
    (o : Outline)
    (whole : Term)
    (ss : List Address) : Prop where
  linked : o.tree.IsLinked
  matched : o.terms.size = o.tree.size
  filled : ss.length = o.tree.size
  found : ∀ {i a}, ss[i]? = some a → whole.at? a = some (o.term i)
  reaches : ∀ {i j a b}, ss[i]? = some a → ss[j]? = some b →
    (o.tree.Reaches i j ↔ a <+: b)

/-
  A walk comes to an address where no site lies at or below,
  `above` being the site of the node to push to.
-/
structure IsFresh
    (ss : List Address)
    (above c : Address) : Prop where
  isAbove : above <+: c
  innermost : ∀ s ∈ ss, s <+: c → s <+: above
  unvisited : ∀ s ∈ ss, ¬ c <+: s

/-
  The same before the terms below an address, counted from a
  number on.
-/
structure IsFreshFrom
    (ss : List Address)
    (above b : Address)
    (k : Nat) : Prop where
  isAbove : above <+: b
  innermost : ∀ s ∈ ss, s <+: b → s <+: above
  unvisited : ∀ s ∈ ss, ∀ j, k ≤ j → ¬ b ++ [j] <+: s

/- The sites of the outline of a whole text. -/
def sites
    (whole : Term) : List Address :=
  [] :: Term.sitesParts 0 whole.parts

end Outline

end Whittle

------------------------------------------------------------
-- Fresh Addresses
------------------------------------------------------------

namespace Whittle

namespace Outline

variable {ss : List Address} {above b c : Address} {k : Nat}

theorem not_concat_isPrefix_self
    (b : Address)
    (k : Nat) :
    ¬ b ++ [k] <+: b := by
  intro hPrefix
  have hLength := hPrefix.length_le
  rw [List.length_append, List.length_singleton] at hLength
  omega

/- The first of the terms below an address is fresh. -/
theorem IsFreshFrom.head
    (hFresh : IsFreshFrom ss above b k) :
    IsFresh ss above (b ++ [k]) where
  isAbove :=
    hFresh.isAbove.trans (List.prefix_append b [k])
  innermost s hs hPrefix := by
    rcases List.prefix_concat_iff.mp hPrefix with rfl | hAbove
    · exact absurd List.prefix_rfl
        (hFresh.unvisited _ hs k (Nat.le_refl k))
    · exact hFresh.innermost s hs hAbove
  unvisited s hs := hFresh.unvisited s hs k (Nat.le_refl k)

/- What is fresh stays so when the first term has been visited. -/
theorem IsFreshFrom.next
    (hFresh : IsFreshFrom ss above b k)
    (rs : List Address) :
    IsFreshFrom (ss ++ rs.map (b ++ [k] ++ ·)) above b (k + 1) where
  isAbove := hFresh.isAbove
  innermost s hs hPrefix := by
    rcases List.mem_append.mp hs with hOld | hNew
    · exact hFresh.innermost s hOld hPrefix
    · rcases List.mem_map.mp hNew with ⟨r, -, rfl⟩
      exact absurd ((List.prefix_append _ _).trans hPrefix)
        (not_concat_isPrefix_self b k)
  unvisited s hs j hj hPrefix := by
    rcases List.mem_append.mp hs with hOld | hNew
    · exact hFresh.unvisited s hOld j (Nat.le_of_succ_le hj) hPrefix
    · rcases List.mem_map.mp hNew with ⟨r, -, rfl⟩
      rw [List.append_assoc, List.prefix_append_right_inj,
        List.singleton_append, List.cons_prefix_cons] at hPrefix
      omega

/- The terms below an address that is fresh are fresh. -/
theorem IsFresh.from
    (hFresh : IsFresh ss above c) :
    IsFreshFrom ss above c 0 where
  isAbove := hFresh.isAbove
  innermost := hFresh.innermost
  unvisited s hs j _ hPrefix :=
    hFresh.unvisited s hs ((List.prefix_append c [j]).trans hPrefix)

/- So are those below an address that has become a site. -/
theorem IsFresh.from_push
    (hFresh : IsFresh ss above c) :
    IsFreshFrom (ss ++ [c]) c c 0 where
  isAbove := List.prefix_rfl
  innermost _ _ hPrefix := hPrefix
  unvisited s hs j hj hPrefix := by
    rcases List.mem_append.mp hs with hOld | hNew
    · exact hFresh.from.unvisited s hOld j hj hPrefix
    · rw [List.mem_singleton.mp hNew] at hPrefix
      exact not_concat_isPrefix_self c j hPrefix

end Outline

end Whittle

------------------------------------------------------------
-- Growing With Sites
------------------------------------------------------------

namespace Whittle

namespace Outline

variable {ls : Array Text} {whole t : Term} {o : Outline}
variable {ss : List Address} {above c : Address} {parent : Nat}

/- A push to the node above a fresh address makes it a site. -/
theorem IsSited.push
    {e : Extent}
    (hSited : o.IsSited whole ss)
    (hParent : ss[parent]? = some above)
    (hFresh : IsFresh ss above c)
    (hAt : whole.at? c = some t) :
    (o.push ls parent t e).IsSited whole (ss ++ [c]) := by
  have hLt : parent < o.tree.size := by
    rw [← hSited.filled]
    exact (List.getElem?_eq_some_iff.mp hParent).1
  have hGet : ∀ {i a}, (ss ++ [c])[i]? = some a →
      (i < o.tree.size ∧ ss[i]? = some a) ∨
        (i = o.tree.size ∧ a = c) := by
    intro i a hi
    rw [← hSited.filled]
    rw [List.getElem?_append] at hi
    split at hi
    · rename_i hOld
      exact .inl ⟨hOld, hi⟩
    · rename_i hNew
      have hOne := (List.getElem?_eq_some_iff.mp hi).1
      rw [List.length_singleton] at hOne
      have hIndex : i - ss.length = 0 := by omega
      rw [hIndex] at hi
      cases hi
      exact .inr ⟨by omega, rfl⟩
  have hLinked := hSited.linked.add t.label (e.span ls) t.image? hLt
  refine
    { linked := hLinked
      matched := ?_
      filled := ?_
      found := ?_
      reaches := ?_ }
  · rw [size_push, ← hSited.matched]
    exact Array.size_push _
  · rw [List.length_append, size_push, hSited.filled]
    rfl
  · intro i a hi
    rw [term_push, hSited.matched]
    rcases hGet hi with ⟨hOld, hSome⟩ | ⟨rfl, rfl⟩
    · rw [if_neg (Nat.ne_of_lt hOld)]
      exact hSited.found hSome
    · rw [if_pos rfl]
      exact hAt
  · intro i j a b hi hj
    have hMem : ∀ {i a}, ss[i]? = some a → a ∈ ss :=
      fun h => List.mem_of_getElem? h
    rcases hGet hj with ⟨hOld, hSome⟩ | ⟨rfl, rfl⟩
    · rw [show (o.push ls parent t e).tree.Reaches i j ↔ _ from
        hSited.linked.reaches_add _ _ _ hLt hOld]
      rcases hGet hi with ⟨_, hSome'⟩ | ⟨rfl, rfl⟩
      · exact hSited.reaches hSome' hSome
      · -- a node that was there does not lie in the new one
        have hNot := hFresh.unvisited b (hMem hSome)
        refine iff_of_false (fun hReaches => ?_) hNot
        have hLe := hSited.linked.le_of_reaches hReaches
        omega
    · rw [show (o.push ls parent t e).tree.Reaches i o.tree.size ↔ _
        from hSited.linked.reaches_add_size _ _ _ hLt]
      rcases hGet hi with ⟨hOld, hSome⟩ | ⟨rfl, rfl⟩
      · rw [hSited.reaches hSome hParent]
        constructor
        · rintro (rfl | hPrefix)
          · exact absurd hOld (Nat.lt_irrefl _)
          · exact hPrefix.trans hFresh.isAbove
        · exact fun hPrefix =>
            .inr (hFresh.innermost a (hMem hSome) hPrefix)
      · exact iff_of_true (.inl rfl) List.prefix_rfl

/- Parts are appended like their terms. -/
theorem growParts_eq
    (o : Outline)
    (ps : List (String × Term)) :
    growParts ls parent o ps = growAll ls parent o (ps.map (·.2)) := by
  induction ps generalizing o with
  | nil => rfl
  | cons p rest ih =>
      rw [List.map_cons, growParts, growAll, ih]

/- Growing at a fresh address adds the sites of the term there. -/
def AddsSites
    (whole : Term)
    (parent : Nat)
    (o o' : Outline)
    (rs : List Address)
    (c : Address) : Prop :=
  ∀ ss above, o.IsSited whole ss → ss[parent]? = some above →
    IsFresh ss above c →
    o'.IsSited whole (ss ++ rs.map (c ++ ·))

/- Growing below a fresh address adds the sites of terms there. -/
def AddsSitesFrom
    (whole : Term)
    (parent : Nat)
    (o o' : Outline)
    (rs : List Address)
    (b : Address)
    (k : Nat) : Prop :=
  ∀ ss above, o.IsSited whole ss → ss[parent]? = some above →
    IsFreshFrom ss above b k →
    o'.IsSited whole (ss ++ rs.map (b ++ ·))

/- The terms at the addresses below one are these, in order. -/
def HoldsFrom
    (whole : Term)
    (b : Address)
    (k : Nat)
    (ts : List Term) : Prop :=
  ∀ j u, ts[j]? = some u → whole.at? (b ++ [k + j]) = some u

/- The terms after the first one come with the next number. -/
theorem HoldsFrom.tail
    {b : Address}
    {k : Nat}
    {ts : List Term}
    (hHolds : HoldsFrom whole b k (t :: ts)) :
    HoldsFrom whole b (k + 1) ts := by
  intro j u hj
  rw [Nat.add_assoc, Nat.add_comm 1 j]
  exact hHolds (j + 1) u hj

/- The terms right below a term stand below its address. -/
theorem holdsFrom_subterms
    (hAt : whole.at? c = some t) :
    HoldsFrom whole c 0 t.subterms := by
  intro j u hj
  rw [Nat.zero_add, Term.at?_concat hAt]
  exact hj

theorem addsSites_nil :
    AddsSites whole parent o o [] c := by
  intro ss above hSited _ _
  rw [List.map_nil, List.append_nil]
  exact hSited

/- The sites below an address that is no site itself. -/
theorem AddsSitesFrom.addsSites
    {o' : Outline}
    {rs : List Address}
    (hAdds : AddsSitesFrom whole parent o o' rs c 0) :
    AddsSites whole parent o o' rs c :=
  fun ss above hSited hParent hFresh =>
    hAdds ss above hSited hParent hFresh.from

/- The site of a node that is pushed, and the sites below it. -/
theorem AddsSitesFrom.addsSites_push
    {o' : Outline}
    {rs : List Address}
    {e : Extent}
    (hAt : whole.at? c = some t)
    (hAdds : AddsSitesFrom whole o.tree.size (o.push ls parent t e) o'
      rs c 0) :
    AddsSites whole parent o o' ([] :: rs) c := by
  intro ss above hSited hParent hFresh
  have hNew : (ss ++ [c])[o.tree.size]? = some c := by
    rw [← hSited.filled]
    exact List.getElem?_concat_length
  have hBelow := hAdds (ss ++ [c]) c
    (hSited.push hParent hFresh hAt) hNew hFresh.from_push
  rw [List.append_assoc, List.singleton_append] at hBelow
  rw [List.map_cons, List.append_nil]
  exact hBelow

theorem AddsSites.cons
    {o' o'' : Outline}
    {rs rs' : List Address}
    {b : Address}
    {k : Nat}
    (hFirst : AddsSites whole parent o o' rs (b ++ [k]))
    (hRest : AddsSitesFrom whole parent o' o'' rs' b (k + 1)) :
    AddsSitesFrom whole parent o o'' (rs.map (k :: ·) ++ rs') b k := by
  intro ss above hSited hParent hFresh
  have hHead := hFirst ss above hSited hParent hFresh.head
  have hParent' :
      (ss ++ rs.map (b ++ [k] ++ ·))[parent]? = some above := by
    rw [List.getElem?_append_left
      (List.getElem?_eq_some_iff.mp hParent).1]
    exact hParent
  have hAll := hRest _ above hHead hParent' (hFresh.next rs)
  have hSame : (rs.map (k :: ·)).map (b ++ ·) =
      rs.map (b ++ [k] ++ ·) := by
    rw [List.map_map]
    refine List.map_congr_left fun r _ => ?_
    exact (List.append_assoc b [k] r).symm
  rw [List.map_append, hSame, ← List.append_assoc]
  exact hAll

/-
  An outline that grows by a term gets the sites of the term,
  in the order of the walk, and by several terms those of each.
-/
theorem isSited_grow :
    (∀ parent o (t : Term) c, whole.at? c = some t →
        AddsSites whole parent o (grow ls parent o t) t.sites c) ∧
      (∀ parent o (ps : List (String × Term)) b k,
        HoldsFrom whole b k (ps.map (·.2)) →
        AddsSitesFrom whole parent o (growParts ls parent o ps)
          (Term.sitesParts k ps) b k) ∧
      (∀ parent o (ts : List Term) b k,
        HoldsFrom whole b k ts →
        AddsSitesFrom whole parent o (growAll ls parent o ts)
          (Term.sitesAll k ts) b k) := by
  have hNone : ∀ parent o b k,
      AddsSitesFrom whole parent o o [] b k := by
    intro parent o b k ss above hSited _ _
    rw [List.map_nil, List.append_nil]
    exact hSited
  have hCons : ∀ parent o (t : Term) ts,
      (∀ c, whole.at? c = some t →
        AddsSites whole parent o (grow ls parent o t) t.sites c) →
      (∀ b k, HoldsFrom whole b k ts →
        AddsSitesFrom whole parent (grow ls parent o t)
          (growAll ls parent (grow ls parent o t) ts)
          (Term.sitesAll k ts) b k) →
      ∀ b k, HoldsFrom whole b k (t :: ts) →
        AddsSitesFrom whole parent o (growAll ls parent o (t :: ts))
          (Term.sitesAll k (t :: ts)) b k := by
    intro parent o t ts hFirst hRest b k hHolds
    rw [growAll, Term.sitesAll]
    exact (hFirst _ (hHolds 0 t rfl)).cons
      (hRest b (k + 1) hHolds.tail)
  refine grow.mutual_induct ls
    (fun parent o t => ∀ c, whole.at? c = some t →
      AddsSites whole parent o (grow ls parent o t) t.sites c)
    (fun parent o ps => ∀ b k, HoldsFrom whole b k (ps.map (·.2)) →
      AddsSitesFrom whole parent o (growParts ls parent o ps)
        (Term.sitesParts k ps) b k)
    (fun parent o ts => ∀ b k, HoldsFrom whole b k ts →
      AddsSitesFrom whole parent o (growAll ls parent o ts)
        (Term.sitesAll k ts) b k)
    ?blank ?word ?several ?flatAtomic ?flat ?nodeAtomic ?node
    ?noItems ?items ?noParts ?parts
  case blank =>
    intro parent o c _
    rw [grow, Term.sites]
    exact addsSites_nil
  case word =>
    intro parent o text c _
    rw [grow, Term.sites]
    exact addsSites_nil
  case several =>
    intro parent o items ih c hAt
    rw [grow, Term.sites]
    exact (ih c 0 (holdsFrom_subterms hAt)).addsSites
  case flatAtomic =>
    intro parent o label parts hAtomic c _
    rw [grow, Term.sites, if_pos hAtomic, if_pos hAtomic]
    exact addsSites_nil
  case flat =>
    intro parent o label parts hAtomic ih c hAt
    rw [grow, Term.sites, if_neg hAtomic, if_neg hAtomic]
    exact (ih c 0 (holdsFrom_subterms hAt)).addsSites
  case nodeAtomic =>
    intro parent o label e parts t hAtomic c hAt
    rw [grow, Term.sites, if_pos hAtomic, if_pos hAtomic]
    exact AddsSitesFrom.addsSites_push hAt (hNone _ _ c 0)
  case node =>
    intro parent o label e parts t grown hAtomic ih c hAt
    rw [grow, Term.sites, if_neg hAtomic, if_neg hAtomic]
    exact (ih c 0 (holdsFrom_subterms hAt)).addsSites_push hAt
  case noItems => exact fun parent o b k _ => hNone parent o b k
  case items => exact hCons
  case noParts => exact fun parent o b k _ => hNone parent o b k
  case parts =>
    intro parent o name t rest hFirst hRest b k hHolds
    rw [growParts_eq, Term.sitesParts_eq]
    refine hCons parent o t _ hFirst (fun b k hHolds' => ?_) b k
      hHolds
    rw [← growParts_eq, ← Term.sitesParts_eq]
    exact hRest b k hHolds'

end Outline

end Whittle

------------------------------------------------------------
-- Outlines Of Whole Texts
------------------------------------------------------------

namespace Whittle

namespace Outline

variable {whole : Term}

/- The only node in the beginning is that of the whole text. -/
theorem isSited_start
    (name : String)
    (whole : Term) :
    (start name whole).IsSited whole [[]] where
  linked := Tree.isLinked_single 0 name "Module" _
  matched := rfl
  filled := rfl
  found {i a} hi := by
    cases i with
    | zero => cases hi; rfl
    | succ i => cases hi
  reaches {i j a b} hi hj := by
    cases i with
    | succ i => cases hi
    | zero =>
        cases j with
        | succ j => cases hj
        | zero =>
            cases hi
            cases hj
            exact iff_of_true .refl List.prefix_rfl

/-
  The nodes of the outline of a text are made of the terms at
  its sites, before and after the tree is settled.
-/
theorem isSited_ofTerm
    (name : String)
    (text : Text)
    (whole : Term) :
    (ofTerm name text whole).IsSited whole (sites whole) := by
  have hHolds : HoldsFrom whole [] 0 (whole.parts.map (·.2)) := by
    cases whole with
    | node label extent parts =>
        exact holdsFrom_subterms
          (show (Term.node label extent parts).at? [] = _ from rfl)
    | _ => exact fun j u hj => absurd hj (by simp [Term.parts])
  have hFresh : IsFreshFrom [[]] [] [] 0 :=
    { isAbove := List.prefix_rfl
      innermost := fun _ _ hPrefix => hPrefix
      unvisited := by
        intro s hs j _ hPrefix
        rw [List.mem_singleton.mp hs] at hPrefix
        exact not_concat_isPrefix_self [] j hPrefix }
  have hGrown : (grown name text whole).IsSited whole (sites whole) := by
    have hAdds : AddsSitesFrom whole 0 (start name whole)
        (grown name text whole) (Term.sitesParts 0 whole.parts) [] 0 :=
      isSited_grow.2.1 0 _ _ [] 0 hHolds
    have hAll := hAdds [[]] [] (isSited_start name whole) rfl hFresh
    rwa [show (Term.sitesParts 0 whole.parts).map ([] ++ ·) =
      Term.sitesParts 0 whole.parts from List.map_id _] at hAll
  have hSettles := Tree.settles_settle hGrown.linked.toIsTree
    (isGrown_grown name text whole).visited
  rw [ofTerm_eq]
  exact
    { linked := hSettles.isLinked hGrown.linked
      matched := hGrown.matched.trans hSettles.size.symm
      filled := hGrown.filled.trans hSettles.size.symm
      found := hGrown.found
      reaches := fun hi hj => by
        rw [show Tree.Reaches _ = Tree.Reaches _ from
          hSettles.reaches_eq]
        exact hGrown.reaches hi hj }

theorem mem_sites_whole
    (hRoot : whole.label = "Module")
    {a : Address} :
    a ∈ sites whole ↔ a = [] ∨ whole.IsVisible a := by
  have hAtomic : whole.isAtomic = false := by
    rw [Term.isAtomic, hRoot]
    decide
  cases whole with
  | node label extent parts =>
      rw [sites, List.mem_cons, Term.isVisible_iff_below, hAtomic,
        Term.mem_sites_iff_all.2.1]
      simp only [Term.parts, Term.subterms, true_and]
      constructor
      · rintro (hNil | hBelow)
        · exact .inl hNil
        · exact .inr (.inr hBelow)
      · rintro (hNil | ⟨hNil, -⟩ | hBelow)
        · exact .inl hNil
        · exact .inl hNil
        · exact .inr hBelow
  | _ => exact absurd hRoot (by simp [Term.label])

theorem IsSited.eq_of_getElem?
    {o : Outline}
    {ss : List Address}
    {i j : Nat}
    {a : Address}
    (hSited : o.IsSited whole ss)
    (hi : ss[i]? = some a)
    (hj : ss[j]? = some a) :
    i = j :=
  hSited.linked.eq_of_reaches
    ((hSited.reaches hi hj).mpr List.prefix_rfl)
    ((hSited.reaches hj hi).mpr List.prefix_rfl)

end Outline

end Whittle
