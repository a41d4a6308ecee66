import Mathlib.Data.List.Basic
import Whittle.Term.Basic

/-
  Places in a term.

  Key definitions include:
    * `Address`
    * `Term.at?`
    * `Term.IsOpenAt`
    * `Term.sites`

  Main statements:
    * `Term.at?_append`
    * `Term.isVisible_iff`
    * `Term.mem_sites_iff_all`

  A term may stand in another one more than once, so a place
  is the list of choices that lead to it.  The sites are the
  places of terms with an extent, in the order of a walk that
  does not go into terms that are looked at as a whole.
-/

------------------------------------------------------------
-- Addresses
------------------------------------------------------------

namespace Whittle

/- The numbers of the parts to go to, from the outermost one. -/
abbrev Address :=
  List Nat

namespace Term

/- The terms right below a term. -/
def subterms : Term → List Term
  | .several items => items
  | .node _ _ parts => parts.map (·.2)
  | _ => []

/- The term at an address. -/
def at? : Term → Address → Option Term
  | t, [] => some t
  | t, k :: a => t.subterms[k]?.bind fun u => u.at? a

/- No term that is looked at as a whole lies around an address. -/
def IsOpenAt
    (t : Term)
    (a : Address) : Prop :=
  ∀ b u, b <+: a → b ≠ a → t.at? b = some u → u.isAtomic = false

/-
  A term with an extent stands at an address, and no term that
  is looked at as a whole lies around it.
-/
def IsVisible : Term → Address → Prop
  | t, [] => t.extent?.isSome = true
  | t, k :: a =>
      t.isAtomic = false ∧ ∃ u, t.subterms[k]? = some u ∧ u.IsVisible a

mutual

/- The addresses of the nodes that are made of a term. -/
def sites : Term → List Address
  | .blank => []
  | .word _ => []
  | .several items => sitesAll 0 items
  | .node label none parts =>
      if (Term.node label none parts).isAtomic then
        []
      else
        sitesParts 0 parts
  | .node label (some e) parts =>
      if (Term.node label (some e) parts).isAtomic then
        [[]]
      else
        [] :: sitesParts 0 parts

/- The sites of terms that are counted from a number on. -/
def sitesAll
    (k : Nat) : List Term → List Address
  | [] => []
  | t :: rest => (sites t).map (k :: ·) ++ sitesAll (k + 1) rest

/- The sites of parts that are counted from a number on. -/
def sitesParts
    (k : Nat) : List (String × Term) → List Address
  | [] => []
  | (_, t) :: rest =>
      (sites t).map (k :: ·) ++ sitesParts (k + 1) rest

end

end Term

end Whittle

------------------------------------------------------------
-- Going To An Address
------------------------------------------------------------

namespace Whittle

namespace Term

variable {t u : Term} {a b : Address} {k : Nat}

theorem at?_append
    (t : Term)
    (a b : Address) :
    t.at? (a ++ b) = (t.at? a).bind fun u => u.at? b := by
  induction a generalizing t with
  | nil => rfl
  | cons k a ih =>
      rw [List.cons_append, at?, at?, Option.bind_assoc]
      congr 1
      funext u
      exact ih u

theorem at?_concat
    (hAt : t.at? a = some u)
    (k : Nat) :
    t.at? (a ++ [k]) = u.subterms[k]? := by
  rw [at?_append, hAt, Option.bind_some, at?]
  cases u.subterms[k]? <;> rfl

theorem isOpenAt_cons_iff
    (hBelow : t.subterms[k]? = some u) :
    t.IsOpenAt (k :: a) ↔ t.isAtomic = false ∧ u.IsOpenAt a := by
  constructor
  · intro hOpen
    refine ⟨hOpen [] t List.nil_prefix (List.cons_ne_nil k a).symm
      rfl, ?_⟩
    intro b v hb hNe hAt
    refine hOpen (k :: b) v (List.cons_prefix_cons.mpr ⟨rfl, hb⟩)
      (fun hEq => hNe (List.cons.inj hEq).2) ?_
    rw [at?, hBelow]
    exact hAt
  · rintro ⟨hAtomic, hOpen⟩ b v hb hNe hAt
    cases b with
    | nil =>
        cases hAt
        exact hAtomic
    | cons j b =>
        rcases List.cons_prefix_cons.mp hb with ⟨rfl, hRest⟩
        rw [at?, hBelow] at hAt
        exact hOpen b v hRest (fun hEq => hNe (hEq ▸ rfl)) hAt

/- What is visible has an extent, and the way to it is open. -/
theorem isVisible_iff :
    t.IsVisible a ↔
      (∃ u, t.at? a = some u ∧ u.extent?.isSome = true) ∧
        t.IsOpenAt a := by
  induction a generalizing t with
  | nil =>
      constructor
      · intro hExtent
        refine ⟨⟨t, rfl, hExtent⟩, ?_⟩
        intro b u hb hNe
        exact absurd (List.prefix_nil.mp hb) hNe
      · rintro ⟨⟨u, hAt, hExtent⟩, -⟩
        cases hAt
        exact hExtent
  | cons k a ih =>
      rw [IsVisible]
      constructor
      · rintro ⟨hAtomic, u, hBelow, hVisible⟩
        rcases ih.mp hVisible with ⟨⟨v, hAt, hExtent⟩, hOpen⟩
        refine ⟨⟨v, ?_, hExtent⟩,
          (isOpenAt_cons_iff hBelow).mpr ⟨hAtomic, hOpen⟩⟩
        rw [at?, hBelow]
        exact hAt
      · rintro ⟨⟨v, hAt, hExtent⟩, hOpen⟩
        rw [at?, Option.bind_eq_some_iff] at hAt
        rcases hAt with ⟨u, hBelow, hAt⟩
        rcases (isOpenAt_cons_iff hBelow).mp hOpen with
          ⟨hAtomic, hOpen⟩
        exact ⟨hAtomic, u, hBelow,
          ih.mpr ⟨⟨v, hAt, hExtent⟩, hOpen⟩⟩

end Term

end Whittle

------------------------------------------------------------
-- Sites
------------------------------------------------------------

namespace Whittle

namespace Term

variable {t : Term} {a : Address} {k : Nat}

theorem sitesParts_eq
    (k : Nat)
    (ps : List (String × Term)) :
    sitesParts k ps = sitesAll k (ps.map (·.2)) := by
  induction ps generalizing k with
  | nil => rfl
  | cons p rest ih =>
      rw [List.map_cons, sitesParts, sitesAll, ih]

/- A term is visible below one of several terms. -/
def IsVisibleBelow
    (k : Nat)
    (ts : List Term)
    (a : Address) : Prop :=
  ∃ j u b, ts[j]? = some u ∧ a = (k + j) :: b ∧ u.IsVisible b

theorem isVisibleBelow_cons_iff
    {ts : List Term} :
    IsVisibleBelow k (t :: ts) a ↔
      (∃ b, a = k :: b ∧ t.IsVisible b) ∨
        IsVisibleBelow (k + 1) ts a := by
  constructor
  · rintro ⟨j, u, b, hGet, hEq, hVisible⟩
    cases j with
    | zero =>
        cases hGet
        exact .inl ⟨b, hEq, hVisible⟩
    | succ j =>
        refine .inr ⟨j, u, b, hGet, ?_, hVisible⟩
        rw [hEq]
        congr 1
        omega
  · rintro (⟨b, hEq, hVisible⟩ | ⟨j, u, b, hGet, hEq, hVisible⟩)
    · exact ⟨0, t, b, rfl, hEq, hVisible⟩
    · refine ⟨j + 1, u, b, hGet, ?_, hVisible⟩
      rw [hEq]
      congr 1
      omega

theorem isVisible_iff_below :
    t.IsVisible a ↔
      (a = [] ∧ t.extent?.isSome = true) ∨
        (t.isAtomic = false ∧ IsVisibleBelow 0 t.subterms a) := by
  cases a with
  | nil => simp [IsVisible, IsVisibleBelow]
  | cons k a =>
      simp only [IsVisible, IsVisibleBelow, Nat.zero_add,
        List.cons.injEq, reduceCtorEq, false_and, false_or]
      refine and_congr_right fun _ => ?_
      constructor
      · rintro ⟨u, hGet, hVisible⟩
        exact ⟨k, u, a, hGet, ⟨rfl, rfl⟩, hVisible⟩
      · rintro ⟨_, u, _, hGet, ⟨rfl, rfl⟩, hVisible⟩
        exact ⟨u, hGet, hVisible⟩

/-
  The sites of a term are the places where a term is visible,
  and those of several terms the places below one of them.
-/
theorem mem_sites_iff_all :
    (∀ (t : Term) (a : Address), a ∈ t.sites ↔ t.IsVisible a) ∧
      (∀ k (ps : List (String × Term)) (a : Address),
        a ∈ sitesParts k ps ↔ IsVisibleBelow k (ps.map (·.2)) a) ∧
      (∀ k (ts : List Term) (a : Address),
        a ∈ sitesAll k ts ↔ IsVisibleBelow k ts a) := by
  have hNone : ∀ k a, a ∈ sitesAll k [] ↔ IsVisibleBelow k [] a := by
    intro k a
    simp [sitesAll, IsVisibleBelow]
  have hCons : ∀ k t ts,
      (∀ a, a ∈ t.sites ↔ t.IsVisible a) →
      (∀ a, a ∈ sitesAll (k + 1) ts ↔ IsVisibleBelow (k + 1) ts a) →
      ∀ a, a ∈ sitesAll k (t :: ts) ↔ IsVisibleBelow k (t :: ts) a := by
    intro k t ts hFirst hRest a
    rw [sitesAll, List.mem_append, List.mem_map, hRest,
      isVisibleBelow_cons_iff]
    simp only [hFirst, eq_comm, and_comm]
  refine sites.mutual_induct
    (fun t => ∀ a, a ∈ t.sites ↔ t.IsVisible a)
    (fun k ps => ∀ a,
      a ∈ sitesParts k ps ↔ IsVisibleBelow k (ps.map (·.2)) a)
    (fun k ts => ∀ a, a ∈ sitesAll k ts ↔ IsVisibleBelow k ts a)
    ?blank ?word ?several ?flatAtomic ?flat ?nodeAtomic ?node
    ?noItems ?items ?noParts ?parts
  case blank =>
    intro a
    rw [isVisible_iff_below]
    simp [sites, extent?, subterms, IsVisibleBelow]
  case word =>
    intro text a
    rw [isVisible_iff_below]
    simp [sites, extent?, subterms, IsVisibleBelow]
  case several =>
    intro items ih a
    rw [isVisible_iff_below, sites, ih, subterms]
    simp [extent?, isAtomic, label]
  case flatAtomic =>
    intro label parts hAtomic a
    rw [isVisible_iff_below, sites, if_pos hAtomic]
    simp [extent?, hAtomic]
  case flat =>
    intro label parts hAtomic ih a
    rw [isVisible_iff_below, sites, if_neg hAtomic, ih, subterms]
    simp [extent?, hAtomic]
  case nodeAtomic =>
    intro label e parts hAtomic a
    rw [isVisible_iff_below, sites, if_pos hAtomic]
    simp [extent?, hAtomic]
  case node =>
    intro label e parts hAtomic ih a
    rw [isVisible_iff_below, sites, if_neg hAtomic, List.mem_cons, ih,
      subterms]
    simp [extent?, hAtomic]
  case noItems => exact hNone
  case items => exact hCons
  case noParts => exact fun k => hNone k
  case parts =>
    intro k name t rest hFirst hRest a
    rw [sitesParts_eq, List.map_cons]
    refine hCons k t _ hFirst (fun a => ?_) a
    rw [← sitesParts_eq]
    exact hRest a

end Term

end Whittle
