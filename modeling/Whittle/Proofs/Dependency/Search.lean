import Mathlib.Data.List.Basic
import Mathlib.Logic.Function.Iterate
import Whittle.Dependency.Closure

/-
  How what has to go together with a node is searched for.

  Key definitions include:
    * `Dependents.Visits`
    * `Dependents.unknown`
    * `Search`
    * `Search.step`

  Main statements:
    * `Dependents.visits_closureFrom`
    * `Dependents.Visits.keeps`
    * `Search.leads_of_visits`

  `Visits` tells what a search finds without saying how deep
  it may go.  The depth that a search is given is enough, as
  every node that it enters and that has dependents is one
  that was not known before.  A search that keeps its open
  nodes on a stack takes the same way, and so comes to an end.
-/

------------------------------------------------------------
-- Visiting Nodes
------------------------------------------------------------

namespace Whittle

namespace Dependents

/-
  Nodes are visited one after the other.  A node that is known
  is looked up.  Another one is entered: it counts as known
  with nothing found while its dependents are visited, and
  what is found below it is kept with it afterwards.
-/
inductive Visits
    (g : Dependents) :
    Memo → List NodeId → NodeSet → Memo → Prop
| nil
    {memo : Memo} :
    Visits g memo [] [] memo
| known
    {memo memo' : Memo}
    {n : NodeId}
    {rest : List NodeId}
    {found more : NodeSet}
    (hKnown : memo[n]? = some found)
    (hRest : Visits g memo rest more memo') :
    Visits g memo (n :: rest) (found ++ more) memo'
| fresh
    {memo inner memo' : Memo}
    {n : NodeId}
    {rest : List NodeId}
    {below more : NodeSet}
    (hNew : memo[n]? = none)
    (hBelow : Visits g (memo.insert n []) (g.of n) below inner)
    (hRest :
      Visits g (inner.insert n (.ofList (n :: below))) rest more
        memo') :
    Visits g memo (n :: rest) (.ofList (n :: below) ++ more) memo'

variable {g : Dependents} {memo memo' : Memo} {n : NodeId}
variable {ns : List NodeId} {found : NodeSet}

theorem getElem?_insert_of_ne
    {m : NodeId}
    (memo : Memo)
    (found : NodeSet)
    (hNe : n ≠ m) :
    (memo.insert n found)[m]? = memo[m]? := by
  rw [Std.TreeMap.getElem?_insert, if_neg]
  exact fun hSame => hNe (Std.LawfulEqOrd.eq_of_compare hSame)

theorem Visits.keeps
    (hVisits : Visits g memo ns found memo')
    {m : NodeId}
    {s : NodeSet}
    (hKnown : memo[m]? = some s) :
    memo'[m]? = some s := by
  induction hVisits with
  | nil => exact hKnown
  | known _ _ ih => exact ih hKnown
  | @fresh memo inner _ n _ _ _ hNew _ _ ihBelow ihRest =>
      have hNe : n ≠ m := by
        rintro rfl
        rw [hNew] at hKnown
        cases hKnown
      apply ihRest
      rw [getElem?_insert_of_ne _ _ hNe]
      apply ihBelow
      rw [getElem?_insert_of_ne _ _ hNe]
      exact hKnown

theorem Visits.cons
    {between : Memo}
    {more : NodeSet}
    (hFirst : Visits g memo [n] found between)
    (hRest : Visits g between ns more memo') :
    Visits g memo (n :: ns) (found ++ more) memo' := by
  cases hFirst with
  | known hKnown hNone =>
      cases hNone
      rw [List.append_nil]
      exact .known hKnown hRest
  | fresh hNew hBelow hNone =>
      cases hNone
      rw [List.append_nil]
      exact .fresh hNew hBelow hRest

end Dependents

end Whittle

------------------------------------------------------------
-- Depth
------------------------------------------------------------

namespace Whittle

namespace Dependents

variable {g : Dependents} {memo memo' : Memo} {n : NodeId}
variable {ns : List NodeId} {found : NodeSet}

/- The nodes with an entry of which nothing is known yet. -/
def unknown
    (g : Dependents)
    (memo : Memo) : List NodeId :=
  g.keys.filter fun n => memo[n]?.isNone

theorem length_unknown_le
    (hKeeps : ∀ m : NodeId, memo'[m]? = none → memo[m]? = none) :
    (g.unknown memo').length ≤ (g.unknown memo).length := by
  refine (List.monotone_filter_right g.keys ?_).length_le
  intro m hNone
  rw [Option.isNone_iff_eq_none] at hNone ⊢
  exact hKeeps m hNone

theorem length_unknown_insert_lt
    (hEntry : n ∈ g.keys)
    (hNew : memo[n]? = none) :
    (g.unknown (memo.insert n found)).length <
      (g.unknown memo).length := by
  have hTwice :
      g.unknown (memo.insert n found) =
        (g.unknown memo).filter
          fun m => (memo.insert n found)[m]?.isNone := by
    unfold unknown
    rw [List.filter_filter]
    refine List.filter_congr fun m _ => ?_
    by_cases hSame : n = m
    · subst hSame
      simp
    · rw [getElem?_insert_of_ne _ _ hSame, Bool.and_self]
  rw [hTwice]
  refine List.length_filter_lt_length_iff_exists.mpr ⟨n, ?_, ?_⟩
  · unfold unknown
    rw [List.mem_filter]
    exact ⟨hEntry, by rw [hNew]; rfl⟩
  · rw [Std.TreeMap.getElem?_insert_self]
    simp

theorem mem_keys_of_mem
    {m : NodeId}
    (hDependent : m ∈ g.of n) :
    n ∈ g.keys := by
  rw [Std.TreeMap.mem_keys, Std.TreeMap.mem_iff_isSome_getElem?]
  unfold Dependents.of at hDependent
  cases hEntry : g[n]? with
  | none =>
      rw [hEntry] at hDependent
      cases hDependent
  | some _ => rfl

/- What was not known before is not known after less. -/
theorem Visits.unknown_le
    (hVisits : Visits g memo ns found memo') :
    (g.unknown memo').length ≤ (g.unknown memo).length := by
  refine length_unknown_le fun m hNone => ?_
  cases hKnown : memo[m]? with
  | none => rfl
  | some s =>
      rw [hVisits.keeps hKnown] at hNone
      cases hNone

/-
  Visits node after node as a search does that has found some
  nodes already.
-/
theorem visits_foldl
    {fuel : Nat}
    {ns : List NodeId}
    (hOne : ∀ (memo : Memo), ∀ n ∈ ns,
      (g.unknown memo).length < fuel →
        Visits g memo [n] (g.closureFrom fuel memo n).1
          (g.closureFrom fuel memo n).2)
    (hEnough : ∀ n ∈ ns, (g.unknown memo).length < fuel)
    (before : NodeSet) :
    ∃ found memo',
      ns.foldl
          (fun (found, memo) dependent =>
            let (more, memo) := closureFrom g fuel memo dependent
            (found ++ more, memo))
          (before, memo) =
        (before ++ found, memo') ∧
      Visits g memo ns found memo' := by
  induction ns generalizing memo before with
  | nil => exact ⟨[], memo, by simp, .nil⟩
  | cons n rest ih =>
      have hLt := hEnough n List.mem_cons_self
      have hFirst := hOne memo n List.mem_cons_self hLt
      obtain ⟨more, memo', hFold, hRest⟩ :=
        ih (fun memo m hm => hOne memo m (List.mem_cons_of_mem n hm))
          (fun _ _ => Nat.lt_of_le_of_lt hFirst.unknown_le hLt)
          (before ++ (g.closureFrom fuel memo n).1)
      refine ⟨_, memo', ?_, hFirst.cons hRest⟩
      rw [List.foldl_cons, ← List.append_assoc]
      exact hFold

/-
  The depth that a search is given is enough if there are
  fewer unknown nodes with an entry.
-/
theorem visits_closureFrom
    {fuel : Nat}
    (hEnough : (g.unknown memo).length < fuel) :
    Visits g memo [n] (g.closureFrom fuel memo n).1
      (g.closureFrom fuel memo n).2 := by
  induction fuel generalizing memo n with
  | zero => omega
  | succ fuel ih =>
      unfold closureFrom
      cases hKnown : memo[n]? with
      | some found =>
          have hVisits := Visits.known (g := g) hKnown .nil
          rwa [List.append_nil] at hVisits
      | none =>
          have hFewer :
              ∀ m ∈ g.of n,
                (g.unknown (memo.insert n [])).length < fuel := by
            intro m hDependent
            have hLt :
                (g.unknown (memo.insert n [])).length <
                  (g.unknown memo).length :=
              length_unknown_insert_lt (mem_keys_of_mem hDependent)
                hKnown
            omega
          obtain ⟨below, inner, hFold, hVisits⟩ :=
            visits_foldl (fun _ _ _ hLt => ih hLt) hFewer []
          dsimp only
          rw [hFold]
          have hAll := Visits.fresh hKnown hVisits .nil
          rwa [List.append_nil] at hAll

/- What a search from a node visits. -/
theorem visits_closure
    (g : Dependents)
    (memo : Memo)
    (n : NodeId) :
    Visits g memo [n] (g.closure memo n).1 (g.closure memo n).2 := by
  apply visits_closureFrom
  have hLe : (g.unknown memo).length ≤ g.keys.length :=
    List.length_filter_le _ _
  rw [Std.TreeMap.length_keys] at hLe
  omega

end Dependents

end Whittle

------------------------------------------------------------
-- Searching With A Stack
------------------------------------------------------------

namespace Whittle

/-
  A node that is open, with what has been found below it and
  its dependents that have not been looked at.
-/
structure OpenNode where
  node : NodeId
  found : NodeSet
  pending : List NodeId

/-
  A search with the nodes that are open, the one entered last
  first.
-/
structure Search where
  known : Memo
  stack : List OpenNode

namespace Search

/- Add what has been found below the node that is on top. -/
def merge
    (found : NodeSet) : List OpenNode → List OpenNode
  | [] => []
  | top :: rest => { top with found := top.found ++ found } :: rest

/-
  One step of a search.  A dependent that is known is looked
  up, and another one is entered.  A node is left when none
  of its dependents is pending.
-/
def step
    (g : Dependents) : Search → Search
  | ⟨known, []⟩ => ⟨known, []⟩
  | ⟨known, ⟨n, found, []⟩ :: rest⟩ =>
      let result := NodeSet.ofList (n :: found)
      ⟨known.insert n result, merge result rest⟩
  | ⟨known, ⟨n, found, dependent :: pending⟩ :: rest⟩ =>
      match known[dependent]? with
      | some more => ⟨known, ⟨n, found ++ more, pending⟩ :: rest⟩
      | none =>
          ⟨known.insert dependent [],
            ⟨dependent, [], g.of dependent⟩ ::
              ⟨n, found, pending⟩ :: rest⟩

/- A search after some steps. -/
def run
    (g : Dependents)
    (steps : Nat)
    (s : Search) : Search :=
  (step g)^[steps] s

/- The search from a node that is not known yet. -/
def start
    (g : Dependents)
    (memo : Memo)
    (n : NodeId) : Search :=
  ⟨memo.insert n [], [⟨n, [], g.of n⟩]⟩

variable {g : Dependents} {s s' s'' : Search}

/- A search leads to another one in some steps. -/
def Leads
    (g : Dependents)
    (s s' : Search) : Prop :=
  ∃ steps, s.run g steps = s'

/- A search leads to where its next step leads. -/
theorem Leads.head
    (hLeads : Leads g (s.step g) s') :
    Leads g s s' := by
  obtain ⟨steps, rfl⟩ := hLeads
  exact ⟨steps + 1, Function.iterate_succ_apply _ _ _⟩

theorem Leads.trans
    (hFirst : Leads g s s')
    (hNext : Leads g s' s'') :
    Leads g s s'' := by
  obtain ⟨steps, rfl⟩ := hFirst
  obtain ⟨more, rfl⟩ := hNext
  exact ⟨more + steps, Function.iterate_add_apply _ _ _ _⟩

/-
  Nodes that are visited are found by a search that has them
  pending on top of its stack.
-/
theorem leads_of_visits
    {memo memo' : Memo}
    {ns : List NodeId}
    {found : NodeSet}
    (hVisits : g.Visits memo ns found memo')
    (n : NodeId)
    (before : NodeSet)
    (pending : List NodeId)
    (rest : List OpenNode) :
    Leads g ⟨memo, ⟨n, before, ns ++ pending⟩ :: rest⟩
      ⟨memo', ⟨n, before ++ found, pending⟩ :: rest⟩ := by
  induction hVisits generalizing n before pending rest with
  | nil =>
      rw [List.append_nil]
      exact ⟨0, rfl⟩
  | @known memo _ d tail more _ hKnown _ ih =>
      have hStep :
          step g ⟨memo, ⟨n, before, d :: (tail ++ pending)⟩ :: rest⟩ =
            ⟨memo, ⟨n, before ++ more, tail ++ pending⟩ :: rest⟩ := by
        simp only [step, hKnown]
      refine Leads.head ?_
      rw [List.cons_append, hStep, ← List.append_assoc]
      exact ih n _ pending rest
  | @fresh memo inner _ d tail below _ hNew _ _ ihBelow ihRest =>
      have hEnter :
          step g ⟨memo, ⟨n, before, d :: (tail ++ pending)⟩ :: rest⟩ =
            ⟨memo.insert d [],
              ⟨d, [], g.of d ++ []⟩ ::
                ⟨n, before, tail ++ pending⟩ :: rest⟩ := by
        simp only [step, hNew, List.append_nil]
      have hLeave :
          step g
              ⟨inner,
                ⟨d, [] ++ below, []⟩ ::
                  ⟨n, before, tail ++ pending⟩ :: rest⟩ =
            ⟨inner.insert d (.ofList (d :: below)),
              ⟨n, before ++ .ofList (d :: below), tail ++ pending⟩ ::
                rest⟩ := by
        simp only [step, merge, List.nil_append]
      refine Leads.head ?_
      rw [List.cons_append, hEnter]
      refine (ihBelow d [] [] _).trans (Leads.head ?_)
      rw [hLeave, ← List.append_assoc]
      exact ihRest n _ pending rest

/-
  A search finds some nodes and leaves a memo: what is known
  of its node is found without a step, and otherwise it comes
  to an end after some steps, with nothing left on its stack.
-/
def Finds
    (g : Dependents)
    (memo : Memo)
    (n : NodeId)
    (found : NodeSet)
    (memo' : Memo) : Prop :=
  match memo[n]? with
  | some known => found = known ∧ memo' = memo
  | none =>
      Leads g (start g memo n) ⟨memo', []⟩ ∧
        memo'[n]? = some found

/- The search with a stack ends with the closure of its node. -/
theorem finds_closure
    (g : Dependents)
    (memo : Memo)
    (n : NodeId) :
    Finds g memo n (g.closure memo n).1 (g.closure memo n).2 := by
  have hVisits := g.visits_closure memo n
  unfold Finds
  generalize (g.closure memo n).1 = found at hVisits ⊢
  generalize (g.closure memo n).2 = memo' at hVisits ⊢
  cases hVisits with
  | known hKnown hNone =>
      cases hNone
      rw [hKnown]
      exact ⟨List.append_nil _, rfl⟩
  | @fresh _ inner _ _ _ below _ hNew hBelow hNone =>
      cases hNone
      rw [hNew]
      refine ⟨?_, by simp⟩
      have hLeads := leads_of_visits hBelow n [] [] []
      rw [List.append_nil] at hLeads
      exact hLeads.trans (Leads.head ⟨0, rfl⟩)

end Search

end Whittle
