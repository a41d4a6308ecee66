import Whittle.Proofs.Session.Operation
import Whittle.Proofs.Session.Soundness
import Whittle.Proofs.Session.Trimming

/-
  The accepted trees are those of the accepted contents.

  Key definitions include:
    * `Session.Acts`
    * `Session.Reaches`
    * `Session.IsDescribed`
    * `Session.Renews`

  Main statements:
    * `Session.Acts.updates`
    * `Session.trees_describeFiles`

  Whatever an operation does, and wherever it fails, either
  all accepted trees stay, or all of them are replaced by
  trees that are new.  A tree that is replaced never comes
  back, so its nodes belong to no file from then on.
-/

------------------------------------------------------------
-- Reachable Sessions
------------------------------------------------------------

namespace Whittle

namespace Session

variable {σ τ : Type} {u : Setup σ τ} {s t : Session σ τ}

/-
  What happens to a session between two looks at it, whether
  it succeeds or fails.  Others may write files and print, and
  the check and the strategy may remember anything, but no
  file is taken away and no number of a tree is given again.
-/
inductive Acts
    (u : Setup σ τ)
    (s : Session σ τ) :
    Session σ τ → Prop
| cleanup (isStrict : Bool) :
    Acts u s (tryCleanup u isStrict s).2
| remove (nodes : List NodeId) :
    Acts u s (tryRemove u nodes s).2
| offer (variants : List (List NodeId)) :
    Acts u s (tryVariants u variants s).2
| force (nodes : List NodeId) :
    Acts u s (forceRemove u nodes s).2
| strip (i : Nat) :
    Acts u s (tryStrip u i s).2
| restore :
    Acts u s (onFiles Workspace.rollBackAll s).2
| disturb (h : Host) (check : σ) (strategy : τ)
    (hGrows : s.workspace.host.Grows h)
    (hCount :
      s.workspace.host.treeCount ≤ h.treeCount) :
    Acts u s
      { s.withHost h with check := check, strategy := strategy }

/- A session is reached from another one. -/
def Reaches
    (u : Setup σ τ) :
    Session σ τ → Session σ τ → Prop :=
  Relation.ReflTransGen (Acts u)

end Session

end Whittle

------------------------------------------------------------
-- Described Files
------------------------------------------------------------

namespace Whittle

namespace Session

open Work

variable {σ τ : Type} {u : Setup σ τ}

/-
  All files are committed, and their trees are the accepted
  ones.  The trees that will be read have other identities.
-/
structure IsDescribed
    (u : Setup σ τ)
    (s : Session σ τ) : Prop where
  committed : ∀ f ∈ s.workspace.scratches, ∃ bs p,
    f.IsCommitted u.rules bs p
  roots : s.roots = s.workspace.roots
  fresh : ∀ p ∈ s.roots,
    p.tree.identity < s.workspace.host.treeCount

/- The accepted trees are the same, or all of them are new. -/
structure Renews
    (s t : Session σ τ) : Prop where
  paths : t.paths = s.paths
  count : s.workspace.host.treeCount ≤ t.workspace.host.treeCount
  trees : t.roots = s.roots ∨
    ∀ p ∈ t.roots, s.workspace.host.treeCount ≤ p.tree.identity

instance : Std.Refl (Renews (σ := σ) (τ := τ)) :=
  ⟨fun _ => ⟨rfl, Nat.le_refl _, .inl rfl⟩⟩

instance : IsTrans (Session σ τ) Renews := by
  refine ⟨fun s t v hst htv => ?_⟩
  refine ⟨htv.paths.trans hst.paths,
    Nat.le_trans hst.count htv.count, ?_⟩
  rcases htv.trees with hSame | hNew
  · rw [hSame]
    exact hst.trees
  · exact .inr fun p hp => Nat.le_trans hst.count (hNew p hp)

/-
  Work on described files leaves them described, and replaces
  all of their trees or none.
-/
def Updates
    (u : Setup σ τ)
    (s t : Session σ τ) : Prop :=
  s.IsDescribed u → t.IsDescribed u ∧ s.Renews t

instance : Std.Refl (Updates u) :=
  ⟨fun s hDescribed => ⟨hDescribed, Std.Refl.refl s⟩⟩

instance : IsTrans (Session σ τ) (Updates u) := by
  refine ⟨fun s t v hst htv hDescribed => ?_⟩
  obtain ⟨hDescribed', hRenews⟩ := hst hDescribed
  obtain ⟨hDescribed'', hRenews'⟩ := htv hDescribed'
  exact ⟨hDescribed'', trans_of Renews hRenews hRenews'⟩

theorem updates_of_eq
    {s t : Session σ τ}
    (hScratches : t.workspace.scratches = s.workspace.scratches)
    (hRoots : t.roots = s.roots)
    (hCount : s.workspace.host.treeCount ≤
      t.workspace.host.treeCount) :
    Updates u s t := by
  intro hDescribed
  refine ⟨⟨?_, ?_, ?_⟩, ?_, hCount, .inl hRoots⟩
  · rw [hScratches]
    exact hDescribed.committed
  · unfold Workspace.roots
    rw [hRoots, hScratches]
    exact hDescribed.roots
  · rw [hRoots]
    exact fun p hp =>
      Nat.lt_of_lt_of_le (hDescribed.fresh p hp) hCount
  · unfold paths Workspace.paths
    rw [hScratches]

theorem updates_onHost
    {α : Type}
    {work : Work Host α}
    (hWork : Moves Host.HasSameCount work) :
    Moves (Updates u) (onHost work) := by
  intro s
  apply ends_onFiles
  apply ends_onHost
  refine (hWork s.workspace.host).mono ?_ ?_
  · exact fun _ h hCount =>
      updates_of_eq rfl rfl (Nat.le_of_eq hCount.symm)
  · exact fun _ h hCount =>
      updates_of_eq rfl rfl (Nat.le_of_eq hCount.symm)

theorem updates_forEach
    {work : Scratch → Work Host Unit}
    (hWork : ∀ f, Moves Host.HasSameCount (work f)) :
    Moves (Updates u) (onFiles (Workspace.forEach work)) := by
  intro s
  apply ends_onFiles
  refine (Workspace.ends_forEach_of_moves hWork s.workspace).mono
    ?_ ?_
  · rintro _ _ ⟨h, hCount, rfl⟩
    exact updates_of_eq rfl rfl (Nat.le_of_eq hCount.symm)
  · rintro _ _ ⟨h, hCount, rfl⟩
    exact updates_of_eq rfl rfl (Nat.le_of_eq hCount.symm)

end Session

end Whittle

------------------------------------------------------------
-- Accepting
------------------------------------------------------------

namespace Whittle

/- The identities of numbered trees are new and different. -/
theorem Parsed.identity_of_mem_numbered
    {start : Nat}
    {ps : List Parsed}
    {p : Parsed}
    (hp : p ∈ numbered start ps) :
    start ≤ p.tree.identity ∧
      p.tree.identity < start + ps.length := by
  have hMem :
      p.tree.identity ∈ List.range' start ps.length := by
    rw [← identities_numbered]
    exact List.mem_map_of_mem hp
  rw [List.mem_range'_1] at hMem
  exact hMem

/- Nothing is accepted of files that cannot all be read. -/
theorem Workspace.eq_none_of_refusal
    {e : Failure}
    {roots? : Option (List Parsed)}
    (hRefusal : refusal e = .ok roots?) :
    roots? = none := by
  cases e <;> cases hRefusal
  rfl

namespace Session

open Work

variable {σ τ : Type} {u : Setup σ τ}

/- All that has been forgotten is what had not been accepted. -/
structure Forgets
    (s t : Session σ τ) : Prop where
  scratches : t.workspace.scratches =
    s.workspace.scratches.map Scratch.forget
  roots : t.roots = s.roots
  count : s.workspace.host.treeCount ≤ t.workspace.host.treeCount

/- Described files have nothing to forget. -/
theorem Forgets.updates
    {s t : Session σ τ}
    (hForgets : s.Forgets t) :
    Updates u s t := by
  intro hDescribed
  refine updates_of_eq ?_ hForgets.roots hForgets.count hDescribed
  rw [hForgets.scratches]
  refine (List.map_congr_left ?_).trans (List.map_id _)
  intro f hf
  obtain ⟨bs, p, hCommitted⟩ := hDescribed.committed f hf
  exact hCommitted.forget_eq

/-
  Accepting all files describes them by new trees, or forgets
  what had been read.
-/
theorem ends_acceptAll_renews
    (s : Session σ τ) :
    Ends (acceptAll u) s
      (fun isAccepted t =>
        if isAccepted then t.IsDescribed u ∧ s.Renews t
        else s.Forgets t)
      (fun _ t => s.Forgets t) := by
  have hCommit := Workspace.commitAll_eq u.rules s.workspace
  unfold acceptAll
  apply ends_bind
  apply ends_onFiles
  cases hAll : s.workspace.readAll u.rules with
  | error e =>
      rw [hAll] at hCommit
      obtain ⟨w, n, hRun, hHost, hForget⟩ := hCommit
      have hForgets : s.Forgets { s with workspace := w } := by
        refine ⟨hForget, rfl, ?_⟩
        dsimp only
        rw [hHost]
        exact Nat.le_add_right _ _
      unfold Ends
      rw [hRun]
      cases hRefusal : Workspace.refusal e with
      | error e' => exact hForgets
      | ok roots? =>
          obtain rfl := Workspace.eq_none_of_refusal hRefusal
          exact hForgets
  | ok ps =>
      rw [hAll] at hCommit
      obtain ⟨w, hRun, hCommits, hRoots, hHost⟩ := hCommit
      have hLength : s.workspace.scratches.length = ps.length :=
        (mapM_eq_ok_iff.mp hAll).length_eq
      apply ends_of_eq_ok hRun
      apply ends_bind
      apply ends_modify
      apply ends_bind
      apply ends_get
      apply ends_bind
      apply ends_modify
      apply ends_pure
      refine ⟨⟨?_, rfl, ?_⟩, hCommits.paths_eq, ?_, .inr ?_⟩
      · intro f hf
        obtain ⟨bs, p, hCommitted, _⟩ := hCommits.isCommitted f hf
        exact ⟨bs, p, hCommitted⟩
      · intro p hp
        dsimp only at hp ⊢
        rw [hRoots] at hp
        rw [hHost]
        exact hLength ▸ (Parsed.identity_of_mem_numbered hp).2
      · dsimp only
        rw [hHost]
        exact Nat.le_add_right _ _
      · intro p hp
        dsimp only at hp
        rw [hRoots] at hp
        exact (Parsed.identity_of_mem_numbered hp).1

theorem updates_acceptAll :
    Moves (Updates u) (acceptAll u) := by
  intro s
  refine (ends_acceptAll_renews s).mono ?_ ?_
  · intro isAccepted t hAccept
    cases isAccepted with
    | true => exact fun _ => hAccept
    | false => exact Forgets.updates hAccept
  · exact fun _ t hForgets => hForgets.updates

theorem isDescribed_of_openFiles
    {fs : List FilePair}
    {h : Host}
    {start : Session σ τ}
    (hOpen : openFiles u fs (initial u h) = (.ok (), start)) :
    start.IsDescribed u ∧ start.paths = targets fs := by
  have hEnds :
      Ends (openFiles u fs) (initial u h)
        (fun _ v => v.IsDescribed u ∧ v.paths = targets fs)
        (fun _ _ => True) := by
    unfold openFiles
    apply ends_bind
    refine (ends_openPairs fs (initial u h)).mono ?_
      (fun _ _ h => h)
    rintro _ t ⟨_, _, hPaths⟩
    apply ends_bind
    refine (ends_acceptAll_renews t).mono ?_ (fun _ _ _ => trivial)
    intro isAccepted v hAccept
    cases isAccepted with
    | false =>
        apply ends_bind
        apply ends_modify
        exact ends_throw trivial
    | true =>
        obtain ⟨hDescribed, hRenews⟩ := hAccept
        apply ends_bind
        apply ends_onFiles
        refine (Workspace.ends_contents v.workspace).mono ?_
          (fun _ _ _ => trivial)
        rintro cs _ ⟨rfl, _⟩
        split
        · exact ends_throw trivial
        · exact ends_modify
            ⟨⟨hDescribed.committed, hDescribed.roots,
              hDescribed.fresh⟩, hRenews.paths.trans hPaths⟩
  exact hEnds.of_ok hOpen

end Session

end Whittle

------------------------------------------------------------
-- Operations
------------------------------------------------------------

namespace Whittle

namespace Session

open Work

variable {σ τ : Type} {u : Setup σ τ}

theorem updates_logEvent
    (kind : String)
    (data : RunLog.Data) :
    Moves (Updates u) (logEvent u kind data) :=
  updates_onHost (u.log.moves_event kind data)

theorem updates_contents :
    Moves (Updates (τ := τ) u) (onFiles Workspace.contents) := by
  intro s
  apply ends_onFiles
  refine (Workspace.ends_contents s.workspace).mono ?_ ?_
  · rintro _ _ ⟨rfl, _⟩
    exact Std.Refl.refl s
  · rintro _ _ rfl
    exact Std.Refl.refl s

theorem updates_tryCommit :
    Moves (Updates u) (tryCommit u) := by
  have hSize : Moves (Updates u) (onFiles Workspace.size) := by
    intro s
    apply ends_onFiles
    refine (Workspace.ends_size s.workspace).mono ?_ ?_
    · rintro _ _ rfl
      exact Std.Refl.refl s
    · rintro _ _ rfl
      exact Std.Refl.refl s
  have hAsk : ∀ cs, Moves (Updates u) (askCheck u cs) := by
    intro cs s
    apply ends_askCheck
    · exact fun _ _ => updates_of_eq rfl rfl (Nat.le_refl _)
    · exact fun _ _ => updates_of_eq rfl rfl (Nat.le_refl _)
  have hNote : ∀ f : Session σ τ → Session σ τ,
      (∀ s, (f s).workspace = s.workspace) →
      (∀ s, (f s).roots = s.roots) →
      Moves (Updates u) (modify f) := by
    intro f hWorkspace hRoots s
    have hSame := hWorkspace s
    apply ends_modify
    exact updates_of_eq (congrArg (·.scratches) hSame) (hRoots s)
      (Nat.le_of_eq (congrArg (·.host.treeCount) hSame.symm))
  unfold tryCommit
  refine moves_bind updates_contents ?_
  intro cs
  split
  · exact moves_throw _
  · refine moves_bind moves_get ?_
    intro s
    split
    · refine moves_bind (hNote _ (fun _ => rfl) (fun _ => rfl)) ?_
      intro _
      refine moves_bind (hNote _ (fun _ => rfl) (fun _ => rfl)) ?_
      exact fun _ => moves_pure _
    · refine moves_bind (hNote _ (fun _ => rfl) (fun _ => rfl)) ?_
      intro _
      refine moves_bind (hAsk cs) ?_
      intro isSatisfied
      refine moves_bind hSize ?_
      intro size
      refine moves_bind (updates_logEvent _ _) ?_
      intro _
      split
      · refine moves_bind updates_acceptAll ?_
        intro isAccepted
        split
        · refine moves_bind moves_get ?_
          intro s
          exact moves_bind (updates_logEvent _ _)
            (fun _ => moves_pure _)
        · exact moves_pure _
      · exact moves_pure _

theorem updates_writeTrimmed
    (nodes : List NodeId) :
    Moves (Updates u) (writeTrimmed u nodes) := by
  unfold writeTrimmed
  refine moves_bind moves_get ?_
  intro s
  refine moves_bind (updates_onHost (moves_trimEach _ _ _)) ?_
  intro unknown
  split
  · exact moves_bind (updates_onHost (Host.moves_warn _))
      (fun _ => updates_logEvent _ _)
  · exact moves_pure _

theorem updates_tryRemove
    (nodes : List NodeId) :
    Moves (Updates u) (tryRemove u nodes) := by
  unfold tryRemove
  split
  · exact moves_pure _
  · refine moves_bind (updates_writeTrimmed nodes) ?_
    exact fun _ => moves_bind updates_tryCommit
      (fun _ => moves_pure _)

theorem updates_tryVariants
    (variants : List (List NodeId)) :
    Moves (Updates u) (tryVariants u variants) := by
  induction variants with
  | nil => exact moves_pure _
  | cons nodes rest ih =>
      unfold tryVariants
      refine moves_bind (updates_tryRemove nodes) ?_
      intro outcome
      split
      · exact ih
      · exact moves_pure _

theorem updates_forceRemove
    (nodes : List NodeId) :
    Moves (Updates u) (forceRemove u nodes) := by
  refine moves_bind (updates_writeTrimmed nodes) ?_
  intro _
  refine moves_bind updates_contents ?_
  intro cs
  refine moves_bind
    (fun s => ends_modify (updates_of_eq rfl rfl (Nat.le_refl _))) ?_
  intro _
  exact moves_bind updates_acceptAll (fun _ => moves_pure _)

theorem updates_tryStrip
    (i : Nat) :
    Moves (Updates u) (tryStrip u i) := by
  refine moves_bind (updates_forEach Scratch.moves_rollBack) ?_
  intro _
  refine moves_bind moves_get ?_
  intro s
  dsimp only
  split
  · exact updates_tryCommit
  · refine moves_bind (updates_onHost ?_)
      (fun _ => updates_tryCommit)
    exact Scratch.moves_writeWithoutBlankLines u.rules _

/- Whatever happens to described files, they are updated. -/
theorem Acts.updates
    {s t : Session σ τ}
    (hActs : Acts u s t) :
    Updates u s t := by
  have hMoves :
      ∀ {α : Type} {work : Work (Session σ τ) α},
        Moves (Updates u) work → Updates u s (work s).2 :=
    fun hWork => (hWork s).anyway
  cases hActs with
  | cleanup isStrict =>
      refine hMoves (moves_bind (updates_forEach
        (Scratch.moves_writeCleaned u.rules)) ?_)
      exact fun _ => moves_bind updates_tryCommit
        (fun _ => moves_pure _)
  | remove nodes => exact hMoves (updates_tryRemove nodes)
  | offer variants => exact hMoves (updates_tryVariants variants)
  | force nodes => exact hMoves (updates_forceRemove nodes)
  | strip i => exact hMoves (updates_tryStrip i)
  | restore =>
      exact hMoves (updates_forEach Scratch.moves_rollBack)
  | disturb h check strategy hGrows hCount =>
      exact updates_of_eq rfl rfl hCount

theorem Reaches.updates
    {s t : Session σ τ}
    (hReaches : Reaches u s t) :
    Updates u s t := by
  induction hReaches with
  | refl => exact Std.Refl.refl s
  | tail _ hActs ih => exact trans_of (Updates u) ih hActs.updates

end Session

end Whittle

------------------------------------------------------------
-- Current Trees
------------------------------------------------------------

namespace Whittle

namespace Session

variable {σ τ : Type} {u : Setup σ τ} {s t : Session σ τ}

/- Each accepted tree is that of the file in its place. -/
theorem IsDescribed.root_eq
    {i : Nat}
    {f : Scratch}
    (hDescribed : s.IsDescribed u)
    (hFile : s.workspace.scratches[i]? = some f) :
    ∃ bs p, f.IsCommitted u.rules bs p ∧ s.roots[i]? = some p := by
  obtain ⟨bs, p, hCommitted⟩ :=
    hDescribed.committed f (List.mem_of_getElem? hFile)
  refine ⟨bs, p, hCommitted, ?_⟩
  have hRoots :
      s.workspace.scratches.map (·.root) = s.roots.map some := by
    rw [hDescribed.roots]
    exact (Scratch.map_root_eq hDescribed.committed).1
  have hPlace :
      (s.roots.map some)[i]? = some (some p) := by
    rw [← hRoots, List.getElem?_map, hFile, ← hCommitted.root]
    rfl
  rw [List.getElem?_map, Option.map_eq_some_iff] at hPlace
  obtain ⟨_, hRoot, hSame⟩ := hPlace
  rw [hRoot, hSame]

theorem not_hasNode_of_replaced
    {p : Parsed}
    {n : NodeId}
    (hDescribed : s.IsDescribed u)
    (hDescribed' : t.IsDescribed u)
    (hRenews : s.Renews t)
    (hp : p ∈ s.roots)
    (hReplaced : p ∉ t.roots)
    (hn : n ∈ p.tree.nodes) :
    t.hasNode n = false := by
  have hNew : ∀ q ∈ t.roots,
      s.workspace.host.treeCount ≤ q.tree.identity := by
    rcases hRenews.trees with hSame | hNew
    · exact absurd (hSame ▸ hp) hReplaced
    · exact hNew
  rw [Bool.eq_false_iff]
  intro hHas
  obtain ⟨f, hf, hOwn⟩ := List.any_eq_true.mp hHas
  obtain ⟨bs, q, hCommitted⟩ := hDescribed'.committed f hf
  rw [hCommitted.nodes, NodeTable.contains_ofList,
    List.contains_iff_mem] at hOwn
  have hq : q ∈ t.roots := by
    rw [hDescribed'.roots]
    exact List.mem_filterMap.mpr ⟨f, hf, hCommitted.root⟩
  have hOld := hDescribed.fresh p hp
  have hLate := hNew q hq
  rw [← Tree.tree_eq_of_mem_nodes hn] at hOld
  rw [← Tree.tree_eq_of_mem_nodes hOwn] at hLate
  exact absurd hOld (Nat.not_lt_of_le hLate)

/-
  Between any two operations of a run, whatever they have led
  to, every accepted tree is what the accepted contents of
  its file are read into, and the nodes that may be cut out
  of the file are those of the tree.  The nodes of a tree that
  has been replaced belong to no file any more: they are not
  cut out of any, only counted and reported.
-/
theorem trees_describeFiles
    {fs : List FilePair}
    {h : Host}
    {start : Session σ τ}
    (hOpen : openFiles u fs (initial u h) = (.ok (), start))
    (hReached : Reaches u start s)
    (hLater : Reaches u s t) :
    t.paths = targets fs ∧
      t.roots.length = fs.length ∧
      (∀ (i : Nat) (f : Scratch),
        t.workspace.scratches[i]? = some f →
        ∃ bs p, f.IsCommitted u.rules bs p ∧
          t.roots[i]? = some p) ∧
      (∀ p ∈ s.roots, p ∉ t.roots → ∀ n ∈ p.tree.nodes,
        t.hasNode n = false) ∧
      ∀ nodes, writeTrimmed u nodes t =
        (do
          writeTrimmed u (nodes.filter t.hasNode)
          reportUnknown u (t.unknownCount nodes)) t := by
  obtain ⟨hStart, hPaths⟩ := isDescribed_of_openFiles hOpen
  obtain ⟨hDescribed, hRenews⟩ := hReached.updates hStart
  obtain ⟨hDescribed', hRenews'⟩ := hLater.updates hDescribed
  have hPaths' : t.paths = targets fs := by
    rw [hRenews'.paths, hRenews.paths, hPaths]
  refine ⟨hPaths', ?_, fun i f hFile => hDescribed'.root_eq hFile,
    fun p hp hReplaced n hn => not_hasNode_of_replaced hDescribed
      hDescribed' hRenews' hp hReplaced hn,
    fun nodes => writeTrimmed_filter u nodes t⟩
  have hRoots := congrArg List.length
    (Scratch.map_root_eq hDescribed'.committed).1
  have hLength := congrArg List.length hPaths'
  unfold paths Workspace.paths targets at hLength
  rw [List.length_map, List.length_map] at hRoots hLength
  rw [hDescribed'.roots, ← hLength]
  exact hRoots.symm

/-
  A cut without a question replaces the tree of the one file.
  Its node is unknown after that.
-/
theorem trees_describeFiles_small :
    ∃ start t : Session Unit Unit,
      opened (smallSetup true .noProgress) [⟨"a", "b"⟩]
          [65, 10, 66] = (.ok (), start) ∧
        t = (forceRemove (smallSetup true .noProgress)
          [⟨0, 0⟩] start).2 ∧
        start.hasNode ⟨0, 0⟩ = true ∧
        t.hasNode ⟨0, 0⟩ = false ∧ t.roots.length = 1 := by
  have hOpened :
      (opened (smallSetup true .noProgress) [⟨"a", "b"⟩]
        [65, 10, 66]).1.toOption.isSome := by
    decide +kernel
  have hOld :
      (opened (smallSetup true .noProgress) [⟨"a", "b"⟩]
        [65, 10, 66]).2.roots.any
          (·.tree.nodes.contains ⟨0, 0⟩) = true := by
    decide +kernel
  have hNew :
      (forceRemove (smallSetup true .noProgress) [⟨0, 0⟩]
        (opened (smallSetup true .noProgress) [⟨"a", "b"⟩]
          [65, 10, 66]).2).2.roots.any
          (·.tree.nodes.contains ⟨0, 0⟩) = false := by
    decide +kernel
  obtain ⟨_, hOpen⟩ := eq_of_isSome hOpened
  obtain ⟨p, hp, hn⟩ := List.any_eq_true.mp hOld
  obtain ⟨_, hCount, _, hReplaced, _⟩ :=
    trees_describeFiles hOpen .refl
      (.single (.force [⟨0, 0⟩]))
  refine ⟨_, _, hOpen, rfl, by decide +kernel, ?_, hCount⟩
  refine hReplaced p hp ?_ ⟨0, 0⟩ (List.contains_iff_mem.mp hn)
  intro hp'
  rw [← Bool.not_eq_true, List.any_eq_true] at hNew
  exact hNew ⟨p, hp', hn⟩

end Session

end Whittle
