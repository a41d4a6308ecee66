import Whittle.Proofs.Session.Step
import Whittle.Session.Trial

/-
  Cutting the nodes of all files.

  Key definitions include:
    * `Session.cutOne`
    * `Session.cutEach`
    * `Session.hasNode`
    * `Session.reportUnknown`

  Main statements:
    * `Session.cutEach_congr`
    * `Session.cutEach_eq_forM`
    * `Session.writeTrimmed_eq`
    * `Session.writeTrimmed_filter`

  Each file takes the nodes that belong to it, and leaves the
  others to the files after it.  What is done to the files
  therefore depends on their own nodes only, and the nodes
  that are left over in the end belong to no file.
-/

------------------------------------------------------------
-- Equal Tables
------------------------------------------------------------

namespace Whittle

namespace NodeTable

/- Tables with the same nodes for some of which a test holds. -/
theorem filter_equiv
    {a b : NodeTable}
    {test : NodeId → Bool}
    (hSame : ∀ n, test n = true → a.contains n = b.contains n) :
    (a.filter test).Equiv (b.filter test) := by
  apply Std.TreeSet.Equiv.of_forall_contains_eq
  intro n
  rw [contains_filter, contains_filter]
  cases hTest : test n with
  | false => rw [Bool.and_false, Bool.and_false]
  | true => rw [hSame n hTest]

/- A test holds for a table if it holds for its members. -/
theorem all_eq_toList
    (nodes : NodeTable)
    (test : NodeId → Bool) :
    nodes.all test = nodes.toList.all test := by
  have hRun :
      nodes.all test =
        Id.run (do
          for n in nodes do
            if test n = false then return false
          return true) := rfl
  rw [hRun]
  simp only [Std.TreeSet.forIn_eq_forIn_toList]
  generalize nodes.toList = ns
  induction ns with
  | nil => rfl
  | cons n rest ih =>
      cases hTest : test n with
      | false => simp [hTest]
      | true => simpa [hTest] using ih

/- A test holds for the nodes that have passed it. -/
theorem all_filter
    (nodes : NodeTable)
    (test : NodeId → Bool) :
    (nodes.filter test).all test = true := by
  rw [all_eq_toList, List.all_eq_true]
  intro n hn
  have hPassed : (nodes.filter test).contains n = true :=
    Std.TreeSet.contains_iff_mem.mpr (Std.TreeSet.mem_toList.mp hn)
  rw [contains_filter, Bool.and_eq_true] at hPassed
  exact hPassed.2

end NodeTable

namespace Scratch

theorem writeTrimmed_congr
    {a b : NodeTable}
    (r : SourceRules)
    (s : Scratch)
    (hEquiv : a.Equiv b) :
    s.writeTrimmed r a = s.writeTrimmed r b := by
  have hContains :
      ∀ n, a.contains n = b.contains n :=
    fun _ => hEquiv.contains_eq
  unfold writeTrimmed
  rw [hEquiv.all_eq]
  simp only [hContains]

end Scratch

namespace Session

theorem abortTrimming_congr
    {a b : NodeTable}
    (s : Scratch)
    (cause : RegionError)
    (hEquiv : a.Equiv b) :
    abortTrimming s a cause = abortTrimming s b cause := by
  unfold abortTrimming explainAll
  rw [hEquiv.toList_eq]

end Session

end Whittle

------------------------------------------------------------
-- Cutting
------------------------------------------------------------

namespace Whittle

namespace Session

open Work

variable {r : SourceRules}

/- Cut the nodes that belong to a file. -/
def cutOne
    (r : SourceRules)
    (nodes : NodeTable)
    (s : Scratch) : Work Host Unit :=
  let current := nodes.filter fun n => s.nodes.contains n
  tryCatch (s.writeTrimmed r current) fun e =>
    match e with
    | .regions cause => abortTrimming s current cause
    | e => throw e

/- Cut the nodes that belong to each file. -/
def cutEach
    (r : SourceRules) :
    List Scratch → NodeTable → Work Host Unit
  | [], _ => pure ()
  | s :: rest, nodes => do
      cutOne r nodes s
      cutEach r rest (nodes.filter fun n => !s.nodes.contains n)

/- The nodes that belong to none of some files. -/
def leftOver : List Scratch → NodeTable → NodeTable
  | [], nodes => nodes
  | s :: rest, nodes =>
      leftOver rest (nodes.filter fun n => !s.nodes.contains n)

/- Trimming is cutting, with the nodes that are left over. -/
theorem trimEach_eq
    (r : SourceRules)
    (ss : List Scratch)
    (nodes : NodeTable) :
    trimEach r ss nodes =
      (do
        cutEach r ss nodes
        pure (leftOver ss nodes)) := by
  induction ss generalizing nodes with
  | nil => rfl
  | cons s rest ih =>
      unfold trimEach cutEach leftOver
      rw [ih, bind_assoc]
      rfl

theorem contains_leftOver
    (ss : List Scratch)
    (nodes : NodeTable)
    (n : NodeId) :
    (leftOver ss nodes).contains n =
      (nodes.contains n && !ss.any (·.nodes.contains n)) := by
  induction ss generalizing nodes with
  | nil =>
      unfold leftOver
      rw [List.any_nil, Bool.not_false, Bool.and_true]
  | cons s rest ih =>
      unfold leftOver
      rw [ih, NodeTable.contains_filter, List.any_cons,
        Bool.not_or, Bool.and_assoc]

theorem cutOne_congr
    {a b : NodeTable}
    {s : Scratch}
    (hSame : ∀ n, s.nodes.contains n = true →
      a.contains n = b.contains n) :
    cutOne r a s = cutOne r b s := by
  have hEquiv := NodeTable.filter_equiv hSame
  have hAbort :
      ∀ cause,
        abortTrimming s (a.filter (s.nodes.contains ·)) cause =
          abortTrimming s (b.filter (s.nodes.contains ·)) cause :=
    fun cause => abortTrimming_congr s cause hEquiv
  unfold cutOne
  dsimp only
  rw [Scratch.writeTrimmed_congr r s hEquiv]
  simp only [hAbort]

theorem cutEach_congr
    {ss : List Scratch}
    {a b : NodeTable}
    (hSame : ∀ s ∈ ss, ∀ n, s.nodes.contains n = true →
      a.contains n = b.contains n) :
    cutEach r ss a = cutEach r ss b := by
  induction ss generalizing a b with
  | nil => rfl
  | cons s rest ih =>
      unfold cutEach
      rw [cutOne_congr (hSame s (by simp)), ih]
      intro t ht n hn
      rw [NodeTable.contains_filter, NodeTable.contains_filter,
        hSame t (List.mem_cons_of_mem s ht) n hn]

/-
  If no node belongs to two files, no file takes away what
  another one could cut.
-/
theorem cutEach_eq_forM
    {ss : List Scratch}
    (hDisjoint : ss.Pairwise fun s t => ∀ n,
      t.nodes.contains n = true → s.nodes.contains n = false)
    (nodes : NodeTable) :
    cutEach r ss nodes = ss.forM (cutOne r nodes) := by
  induction ss generalizing nodes with
  | nil => rfl
  | cons s rest ih =>
      obtain ⟨hFirst, hRest⟩ := List.pairwise_cons.mp hDisjoint
      have hSame :
          cutEach r rest (nodes.filter fun n =>
            !s.nodes.contains n) = cutEach r rest nodes := by
        apply cutEach_congr
        intro t ht n hn
        rw [NodeTable.contains_filter, hFirst t ht n hn,
          Bool.not_false, Bool.and_true]
      unfold cutEach
      rw [hSame, ih hRest]
      rfl

end Session

end Whittle

------------------------------------------------------------
-- Known And Unknown Nodes
------------------------------------------------------------

namespace Whittle

namespace Session

open Work

variable {σ τ : Type} {u : Setup σ τ}

/- A node belongs to one of the files. -/
def hasNode
    (s : Session σ τ)
    (n : NodeId) : Bool :=
  s.workspace.scratches.any (·.nodes.contains n)

/- How many different nodes of a list belong to no file. -/
def unknownCount
    (s : Session σ τ)
    (nodes : List NodeId) : Nat :=
  (NodeTable.ofList (nodes.filter fun n => !s.hasNode n)).size

/- Warn of a number of nodes that belong to no file. -/
def reportUnknown
    (u : Setup σ τ)
    (n : Nat) : Work (Session σ τ) Unit := do
  if n ≠ 0 then
    onHost
      (Host.warn
        "WARNING: strategy tries to remove unknown nodes!")
    logEvent u "strategy.unknown_nodes" [("count", count n)]

theorem size_leftOver
    (s : Session σ τ)
    (nodes : List NodeId) :
    (leftOver s.workspace.scratches (.ofList nodes)).size =
      s.unknownCount nodes := by
  apply Std.TreeSet.Equiv.size_eq
  apply Std.TreeSet.Equiv.of_forall_contains_eq
  intro n
  rw [contains_leftOver, NodeTable.contains_ofList,
    NodeTable.contains_ofList, Bool.eq_iff_iff]
  simp [hasNode]

/- Work on the host leads to the same session on another host. -/
theorem onHost_eq
    {α : Type}
    {work : Work Host α}
    {s : Session σ τ}
    {result : Except Failure α}
    {h : Host}
    (hRun : work s.workspace.host = (result, h)) :
    onHost work s = (result, s.withHost h) := by
  unfold onHost onFiles Workspace.onHost
  rw [hRun]
  rfl

theorem onHost_bind_pure
    {α β : Type}
    (work : Work Host Unit)
    (a : α)
    (next : α → Work (Session σ τ) β)
    (s : Session σ τ) :
    (do
      let b ← onHost (do
        work
        pure a)
      next b) s =
      (do
        onHost work
        next a) s := by
  rcases hWork : work s.workspace.host with ⟨e | _, h⟩
  · rw [bind_of_error (onHost_eq (bind_of_error hWork)),
      bind_of_error (onHost_eq hWork)]
  · have hPart :
        (work >>= fun _ => pure a) s.workspace.host = (.ok a, h) :=
      bind_of_ok hWork
    rw [bind_of_ok (onHost_eq hPart), bind_of_ok (onHost_eq hWork)]

/- Nodes are cut, and those that are unknown are reported. -/
theorem writeTrimmed_eq
    (u : Setup σ τ)
    (nodes : List NodeId)
    (s : Session σ τ) :
    writeTrimmed u nodes s =
      (do
        onHost (cutEach u.rules s.workspace.scratches (.ofList nodes))
        reportUnknown u (s.unknownCount nodes)) s := by
  have hRun :
      writeTrimmed u nodes s =
        (do
          let unknown ← onHost
            (trimEach u.rules s.workspace.scratches (.ofList nodes))
          if !unknown.isEmpty then
            onHost
              (Host.warn
                "WARNING: strategy tries to remove unknown nodes!")
            logEvent u "strategy.unknown_nodes"
              [("count", count unknown.size)]) s := rfl
  rw [hRun, trimEach_eq, onHost_bind_pure,
    Std.TreeSet.isEmpty_eq_size_eq_zero, size_leftOver]
  unfold reportUnknown
  simp only [ne_eq, Bool.not_eq_true', beq_eq_false_iff_ne]

theorem reportUnknown_zero :
    reportUnknown u 0 = pure () :=
  rfl

/-
  Nodes that belong to no file are not cut out of any.  They
  are only counted, and reported after all else.
-/
theorem writeTrimmed_filter
    (u : Setup σ τ)
    (nodes : List NodeId)
    (s : Session σ τ) :
    writeTrimmed u nodes s =
      (do
        writeTrimmed u (nodes.filter s.hasNode)
        reportUnknown u (s.unknownCount nodes)) s := by
  have hNone : s.unknownCount (nodes.filter s.hasNode) = 0 := by
    unfold unknownCount
    rw [List.filter_filter]
    simp [NodeTable.ofList]
  have hCut :
      cutEach u.rules s.workspace.scratches
          (.ofList (nodes.filter s.hasNode)) =
        cutEach u.rules s.workspace.scratches (.ofList nodes) := by
    apply cutEach_congr
    intro f hf n hn
    have hHas : s.hasNode n = true :=
      List.any_eq_true.mpr ⟨f, hf, hn⟩
    rw [NodeTable.contains_ofList, NodeTable.contains_ofList,
      Bool.eq_iff_iff]
    simp [hHas]
  have hKnown := writeTrimmed_eq u (nodes.filter s.hasNode) s
  rw [hNone, hCut, reportUnknown_zero, bind_pure_unit] at hKnown
  rw [writeTrimmed_eq]
  exact (bind_eq_of_eq hKnown).symm

end Session

end Whittle
