import Mathlib.Data.List.Nodup
import Whittle.Proofs.Session.Consistent
import Whittle.Proofs.Session.Trimming

/-
  What the files hold when a trial is made.

  Key definitions include:
    * `Scratch.cutOut`
    * `Session.cutOut`
    * `Session.Attempts`

  Main statements:
    * `Session.attempts_tryCleanup`
    * `Session.attempts_tryRemove`
    * `Session.attempts_tryStrip`
    * `Session.ends_forceRemove`

  Every trial starts from the accepted contents of all files,
  whatever earlier trials have left in them.  So what a file
  holds by then depends only on what was accepted and on what
  is tried.
-/

------------------------------------------------------------
-- What Is Tried
------------------------------------------------------------

namespace Whittle

namespace Scratch

/- The accepted contents of a file without some nodes. -/
def cutOut
    (r : SourceRules)
    (nodes : List NodeId)
    (s : Scratch) : Except Failure Bytes :=
  match s.snapshot, s.root with
  | some bs, some p =>
      r.erased
        (p.tree.cutRegions
          (fun i => nodes.contains (p.tree.node i) &&
            p.tree.nodes.contains (p.tree.node i))
          r.validates) bs
  | none, _ => .error s.lostSnapshot
  | _, none => .error .unmet

/- Some contents are an edit of the accepted ones. -/
def IsEdited
    (r : SourceRules)
    (s : Scratch)
    (bs' : Bytes) : Prop :=
  ∃ bs, s.snapshot = some bs ∧ r.Edits bs bs'

/- Some contents are a cut of the accepted ones. -/
def IsCut
    (r : SourceRules)
    (s : Scratch)
    (bs' : Bytes) : Prop :=
  ∃ bs, s.snapshot = some bs ∧ r.Cuts bs bs'

variable {r : SourceRules} {s : Scratch} {bs bs' : Bytes}

theorem IsCut.isEdited
    (hCut : s.IsCut r bs') :
    s.IsEdited r bs' := by
  obtain ⟨bs, hSnapshot, hCuts⟩ := hCut
  exact ⟨bs, hSnapshot, .inr (.inl hCuts)⟩

/- Cleaning a file cuts it. -/
theorem isCut_of_cleaned
    (hCleaned : s.cleaned r = .ok bs') :
    s.IsCut r bs' := by
  unfold cleaned at hCleaned
  split at hCleaned
  · rename_i bs hSnapshot
    exact ⟨bs, hSnapshot, SourceRules.cuts_of_cleaned hCleaned⟩
  · cases hCleaned

/- What is left without some nodes is a cut. -/
theorem isCut_of_cutOut
    {nodes : List NodeId}
    (hCutOut : s.cutOut r nodes = .ok bs') :
    s.IsCut r bs' := by
  unfold cutOut at hCutOut
  split at hCutOut
  · rename_i bs p hSnapshot hRoot
    exact ⟨bs, hSnapshot, SourceRules.cuts_of_erased hCutOut⟩
  · cases hCutOut
  · cases hCutOut

/- Trimming a committed file leaves out the nodes it has. -/
theorem IsCommitted.trimmed_eq
    {p : Parsed}
    (hCommitted : s.IsCommitted r bs p)
    (nodes : List NodeId) :
    s.trimmed r
        ((NodeTable.ofList nodes).filter fun n =>
          s.nodes.contains n) =
      s.cutOut r nodes := by
  unfold trimmed cutOut
  rw [hCommitted.snapshot, hCommitted.root]
  dsimp only
  rw [NodeTable.all_filter, if_pos rfl]
  simp only [NodeTable.contains_filter,
    NodeTable.contains_ofList, hCommitted.nodes]

end Scratch

namespace Session

variable {σ τ : Type} {u : Setup σ τ}

/- The accepted contents of all files without some nodes. -/
def cutOut
    (u : Setup σ τ)
    (s : Session σ τ)
    (nodes : List NodeId) : Except Failure (List Bytes) :=
  s.workspace.scratches.mapM (Scratch.cutOut u.rules nodes)

/-
  A trial of files that hold contents that are as `P` says.
  If the contents could not be written there is no trial.
-/
inductive Attempts
    (u : Setup σ τ)
    (P : Scratch → Bytes → Prop)
    (s : Session σ τ) :
    Option Bool → Session σ τ → Prop
| stop (h : Host) : Attempts u P s none (s.withHost h)
| trial (h : Host) (cs : List Bytes)
    (result : Option Bool) (t : Session σ τ)
    (hHolds : (s.withHost h).Holds cs)
    (hAll : List.Forall₂ P s.workspace.scratches cs)
    (hTries : Tries u (s.withHost h) result t) :
    Attempts u P s result t

/- Files have been written, and are as `P` says. -/
def Writes
    (P : Scratch → Bytes → Prop)
    (s t : Session σ τ) : Prop :=
  ∃ h cs, t = s.withHost h ∧ t.Holds cs ∧
    List.Forall₂ P s.workspace.scratches cs

end Session

end Whittle

------------------------------------------------------------
-- Cutting Nodes Of All Files
------------------------------------------------------------

namespace Whittle

namespace Session

open Host Work

variable {r : SourceRules} {P : Scratch → Bytes → Prop}

/- The failure of a cut that has been given up. -/
def abortFailure
    (s : Scratch)
    (nodes : NodeTable)
    (cause : RegionError) : Failure :=
  match explainAll s nodes with
  | .error e => .tree e
  | .ok _ => .aborted s.path cause

/- What cutting nodes gives a file, or how that fails. -/
def cutResult
    (r : SourceRules)
    (nodes : List NodeId)
    (s : Scratch) : Except Failure Bytes :=
  match s.cutOut r nodes with
  | .error (.regions cause) =>
      .error
        (abortFailure s
          ((NodeTable.ofList nodes).filter fun n =>
            s.nodes.contains n)
          cause)
  | result => result

/- Cutting nodes gives a file what is left without them. -/
theorem cutResult_eq_ok_iff
    {nodes : List NodeId}
    {s : Scratch}
    {bs : Bytes} :
    cutResult r nodes s = .ok bs ↔ s.cutOut r nodes = .ok bs := by
  unfold cutResult
  split
  · rename_i cause hCut
    simp [hCut]
  · rfl

/- Printing warnings cannot fail. -/
theorem ends_forM_warn
    (lines : List String)
    (h : Host) :
    Ends (lines.forM Host.warn) h
      (fun _ _ => True) (fun _ _ => False) := by
  induction lines generalizing h with
  | nil => exact ends_pure trivial
  | cons line rest ih =>
      apply ends_bind
      apply ends_modify
      exact ih _

/- Giving up a cut ends with its failure. -/
theorem ends_abortTrimming
    (s : Scratch)
    (nodes : NodeTable)
    (cause : RegionError)
    (h : Host) :
    Ends (abortTrimming s nodes cause) h
      (fun _ _ => False)
      (fun e _ => e = abortFailure s nodes cause) := by
  unfold abortTrimming abortFailure
  apply ends_bind
  apply ends_modify
  cases explainAll s nodes with
  | error e => exact ends_throw rfl
  | ok lines =>
      apply ends_bind
      refine (ends_forM_warn lines _).mono ?_ (fun _ _ h => h.elim)
      exact fun _ _ _ => ends_throw rfl

/- A committed file is given what is left without the nodes. -/
theorem gives_cutOne
    {s : Scratch}
    {bs : Bytes}
    {p : Parsed}
    {h : Host}
    (hCommitted : s.IsCommitted r bs p)
    (nodes : List NodeId) :
    h.Gives s.path (cutResult r nodes s)
      (cutOne r (.ofList nodes) s) := by
  have hTrims := Scratch.gives_writeTrimmed (h := h) (r := r)
    ((NodeTable.ofList nodes).filter fun n => s.nodes.contains n)
    hCommitted.snapshot
  rw [hCommitted.trimmed_eq] at hTrims
  apply ends_tryCatch
  refine Ends.mono hTrims ?_ ?_
  · exact fun _ h₁ hGiven => hGiven.mono
      fun bs' hCut => cutResult_eq_ok_iff.mpr hCut
  · intro e h₁ hFails
    unfold cutResult
    split
    · refine (ends_abortTrimming s _ _ h₁).mono
        (fun _ _ h => h.elim) ?_
      rintro _ _ rfl hFile
      rw [hFails hFile]
    · rename_i hOther
      apply ends_throw
      intro hFile
      rw [hFails hFile]
      split
      · rename_i cause hSame
        exact absurd (Except.error.inj hSame) (hOther cause)
      · rfl

/-
  Cutting nodes of each file in turn.  As no node belongs to
  two files, it does not matter that each file takes its nodes
  away from those that are left for the others.
-/
theorem ends_cutEach
    {ss : List Scratch}
    {h : Host}
    (nodes : List NodeId)
    (hCommitted : ∀ s ∈ ss, ∃ bs p, s.IsCommitted r bs p)
    (hDisjoint : ss.Pairwise fun s t => ∀ n,
      t.nodes.contains n = true → s.nodes.contains n = false)
    (hShared : IsShared ss P)
    (hRight : ∀ s ∈ ss, ∀ bs, s.cutOut r nodes = .ok bs → P s bs) :
    Ends (cutEach r ss (.ofList nodes)) h
      (fun _ h' => RewritesAll ss P h h')
      (fun e _ => (∀ s ∈ ss, h.disk.IsFile s.path) →
        ss.mapM (cutResult r nodes) = .error e) := by
  rw [cutEach_eq_forM hDisjoint]
  apply Workspace.ends_forM hShared
  · intro s hs h
    obtain ⟨bs, p, hOne⟩ := hCommitted s hs
    exact gives_cutOne hOne nodes
  · exact fun s hs bs hCut =>
      hRight s hs bs (cutResult_eq_ok_iff.mp hCut)

end Session

end Whittle

------------------------------------------------------------
-- Consistent Files
------------------------------------------------------------

namespace Whittle

/- The nodes of a tree carry its identity. -/
theorem Tree.tree_eq_of_mem_nodes
    {t : Tree}
    {n : NodeId}
    (hn : n ∈ t.nodes) :
    n.tree = t.identity := by
  obtain ⟨i, _, rfl⟩ := List.mem_map.mp hn
  rfl

namespace Session

open Host

variable {σ τ : Type} {u : Setup σ τ} {s : Session σ τ}

/- All files of a consistent session have accepted contents. -/
theorem IsConsistent.exists_snapshot
    (hConsistent : s.IsConsistent u) :
    ∀ f ∈ s.workspace.scratches, ∃ bs, f.snapshot = some bs := by
  intro f hf
  obtain ⟨bs, p, hCommitted⟩ := hConsistent.committed f hf
  exact ⟨bs, hCommitted.snapshot⟩

/- No node belongs to two files of a consistent session. -/
theorem IsConsistent.disjoint
    (hConsistent : s.IsConsistent u) :
    s.workspace.scratches.Pairwise fun f g => ∀ n,
      g.nodes.contains n = true → f.nodes.contains n = false := by
  have hCommitted := hConsistent.committed
  have hIdentities := hConsistent.identities
  unfold Workspace.roots at hIdentities
  generalize s.workspace.scratches = ss at hCommitted hIdentities ⊢
  induction ss with
  | nil => exact .nil
  | cons f rest ih =>
      obtain ⟨bs, p, hf⟩ := hCommitted f (by simp)
      rw [List.filterMap_cons, hf.root] at hIdentities
      dsimp only at hIdentities
      rw [List.map_cons, List.nodup_cons] at hIdentities
      refine .cons ?_ (ih ?_ hIdentities.2)
      · intro g hg n hn
        obtain ⟨bs', p', hg'⟩ :=
          hCommitted g (List.mem_cons_of_mem f hg)
        rw [hg'.nodes, NodeTable.contains_ofList,
          List.contains_iff_mem] at hn
        rw [hf.nodes, NodeTable.contains_ofList,
          Bool.eq_false_iff, Ne, List.contains_iff_mem]
        intro hn'
        have hSame : p.tree.identity = p'.tree.identity :=
          (Tree.tree_eq_of_mem_nodes hn').symm.trans
            (Tree.tree_eq_of_mem_nodes hn)
        refine hIdentities.1 (List.mem_map.mpr ⟨p', ?_, hSame.symm⟩)
        exact List.mem_filterMap.mpr ⟨g, hg, hg'.root⟩
      · exact fun g hg => hCommitted g (List.mem_cons_of_mem f hg)

/-
  What depends on the accepted contents only is right for a
  file under all its names.
-/
theorem IsConsistent.isShared
    {Q : Option Bytes → Bytes → Prop}
    (hConsistent : s.IsConsistent u) :
    IsShared s.workspace.scratches
      (fun f bs => Q f.snapshot bs) := by
  intro f hf g hg hSame bs hQ
  rw [hConsistent.shared f hf g hg hSame]
  exact hQ

/- If files are distinct none of them has two names. -/
theorem isShared_of_areDistinct
    {ss : List Scratch}
    {P : Scratch → Bytes → Prop}
    (hDistinct : FilePath.AreDistinct (ss.map (·.path))) :
    IsShared ss P := by
  unfold FilePath.AreDistinct at hDistinct
  rw [List.map_map] at hDistinct
  intro f hf g hg hSame bs hP
  obtain rfl := List.inj_on_of_nodup_map hDistinct hf hg hSame
  exact hP

end Session

end Whittle

------------------------------------------------------------
-- Trials
------------------------------------------------------------

namespace Whittle

namespace Session

open Host Work

variable {σ τ : Type} {u : Setup σ τ} {s : Session σ τ}
variable {P : Scratch → Bytes → Prop}

/- All files that have been rewritten hold what they should. -/
theorem writes_of_rewritesAll
    {h : Host}
    (hAll :
      RewritesAll s.workspace.scratches P s.workspace.host h) :
    s.Writes P (s.withHost h) := by
  obtain ⟨cs, hHolds, hRight⟩ := hAll.exists_holds
  exact ⟨h, cs, rfl, hHolds, hRight⟩

/- Committing after files have been written is a trial. -/
theorem attempts_tryCommit
    {t : Session σ τ}
    (hApart : s.IsApart u)
    (hWrites : s.Writes P t) :
    Ends (tryCommit u) t
      (fun b v => Attempts u P s (some b) v)
      (fun _ v => Attempts u P s none v) := by
  obtain ⟨h, cs, rfl, hHolds, hAll⟩ := hWrites
  have hApart' : (s.withHost h).IsApart u := hApart
  refine (tries_tryCommit hApart').mono ?_ ?_
  · exact fun b t hTries => .trial h cs _ t hHolds hAll hTries
  · exact fun _ t hTries => .trial h cs _ t hHolds hAll hTries

/- Work on the files, of which each is given what it should. -/
theorem ends_forEach
    {result : Scratch → Except Failure Bytes}
    {work : Scratch → Work Host Unit}
    (hShared : IsShared s.workspace.scratches P)
    (hWork : ∀ f ∈ s.workspace.scratches, ∀ h : Host,
      h.Gives f.path (result f) (work f))
    (hRight : ∀ f ∈ s.workspace.scratches, ∀ bs,
      result f = .ok bs → P f bs) :
    Ends (onFiles (Workspace.forEach work)) s
      (fun _ t => ∃ h, t = s.withHost h ∧
        RewritesAll s.workspace.scratches P s.workspace.host h)
      (fun e t => ∃ h, t = s.withHost h ∧
        ((∀ f ∈ s.workspace.scratches, s.disk.IsFile f.path) →
          s.workspace.scratches.mapM result = .error e)) := by
  apply ends_onFiles
  unfold Workspace.forEach
  apply ends_bind
  apply ends_get
  apply ends_onHost
  refine (Workspace.ends_forM hShared hWork hRight).mono ?_ ?_
  · exact fun _ h hAll => ⟨h, rfl, hAll⟩
  · exact fun _ h hFails => ⟨h, rfl, hFails⟩

/- A cleanup is a trial of cuts. -/
theorem attempts_tryCleanup
    (hConsistent : s.IsConsistent u)
    (isStrict : Bool) :
    Ends (tryCleanup u isStrict) s
      (fun outcome t => ∃ b,
        outcome = progressIf (b && isStrict) ∧
          Attempts u (Scratch.IsCut u.rules) s (some b) t)
      (fun _ t => Attempts u (Scratch.IsCut u.rules) s none t) := by
  have hShared :
      IsShared s.workspace.scratches (Scratch.IsCut u.rules) :=
    hConsistent.isShared
      (Q := fun snapshot bs' =>
        ∃ bs, snapshot = some bs ∧ u.rules.Cuts bs bs')
  apply ends_bind
  refine (ends_forEach hShared ?_
    (fun f _ bs hCleaned => Scratch.isCut_of_cleaned hCleaned)).mono
    ?_ ?_
  · intro f hf h
    obtain ⟨bs, hSnapshot⟩ := hConsistent.exists_snapshot f hf
    exact Scratch.gives_writeCleaned hSnapshot
  · rintro _ _ ⟨h, rfl, hAll⟩
    apply ends_bind
    refine (attempts_tryCommit hConsistent.apart
      (writes_of_rewritesAll hAll)).mono ?_ (fun _ _ h => h)
    exact fun b t hAttempts => ends_pure ⟨b, rfl, hAttempts⟩
  · rintro _ _ ⟨h, rfl, _⟩
    exact .stop h

/-
  What a file holds when nodes are cut out of all files: a cut
  of its accepted contents, and if no file has two names, the
  one that leaves out just these nodes.
-/
def IsWithout
    (u : Setup σ τ)
    (s : Session σ τ)
    (nodes : List NodeId)
    (f : Scratch)
    (bs : Bytes) : Prop :=
  f.IsCut u.rules bs ∧
    (FilePath.AreDistinct s.paths →
      f.cutOut u.rules nodes = .ok bs)

theorem logs_reportUnknown
    (n : Nat) :
    Moves (Logs u) (reportUnknown u n) := by
  unfold reportUnknown
  split
  · exact moves_bind (logs_onHost (Host.moves_warn _))
      (fun _ => logs_logEvent _ _)
  · exact moves_pure _

/- Cutting nodes writes all files. -/
theorem ends_writeTrimmed
    (hConsistent : s.IsConsistent u)
    (nodes : List NodeId) :
    Ends (writeTrimmed u nodes) s
      (fun _ t => s.Writes (s.IsWithout u nodes) t)
      (fun _ t => ∃ h, t = s.withHost h) := by
  have hShared :
      IsShared s.workspace.scratches (s.IsWithout u nodes) := by
    intro f hf g hg hSame bs hWithout
    obtain ⟨⟨old, hSnapshot, hCuts⟩, hExact⟩ := hWithout
    refine ⟨⟨old, ?_, hCuts⟩, fun hDistinct => ?_⟩
    · rw [hConsistent.shared f hf g hg hSame]
      exact hSnapshot
    · have hAlone :
          IsShared s.workspace.scratches
            (fun f bs => f.cutOut u.rules nodes = .ok bs) :=
        isShared_of_areDistinct hDistinct
      exact hAlone f hf g hg hSame bs (hExact hDistinct)
  have hApart : s.IsApart u := hConsistent.apart
  rw [ends_congr (writeTrimmed_eq u nodes s)]
  apply ends_bind
  apply ends_onFiles
  apply ends_onHost
  refine (ends_cutEach nodes hConsistent.committed
    hConsistent.disjoint hShared ?_).mono ?_ ?_
  · exact fun f hf bs hCut =>
      ⟨Scratch.isCut_of_cutOut hCut, fun _ => hCut⟩
  · intro _ h hAll
    obtain ⟨cs, hHolds, hRight⟩ := hAll.exists_holds
    refine (logs_reportUnknown _ (s.withHost h)).mono ?_ ?_
    · rintro _ _ ⟨h', hAdds, rfl⟩
      exact ⟨h', cs, rfl,
        Holds.adds (s := s.withHost h) hHolds hApart hAdds, hRight⟩
    · rintro _ _ ⟨h', _, rfl⟩
      exact ⟨h', rfl⟩
  · exact fun _ h _ => ⟨h, rfl⟩

/- Removing nodes is a trial, if there are any. -/
theorem attempts_tryRemove
    {nodes : List NodeId}
    (hConsistent : s.IsConsistent u)
    (hNodes : nodes ≠ []) :
    Ends (tryRemove u nodes) s
      (fun outcome t => ∃ b, outcome = progressIf b ∧
        Attempts u (s.IsWithout u nodes) s (some b) t)
      (fun _ t => Attempts u (s.IsWithout u nodes) s none t) := by
  unfold tryRemove
  rw [if_neg (by simpa using hNodes)]
  apply ends_bind
  refine (ends_writeTrimmed hConsistent nodes).mono ?_ ?_
  · intro _ t hWrites
    apply ends_bind
    refine (attempts_tryCommit hConsistent.apart hWrites).mono ?_
      (fun _ _ h => h)
    exact fun b t hAttempts => ends_pure ⟨b, rfl, hAttempts⟩
  · rintro _ _ ⟨h, rfl⟩
    exact .stop h

/- Cutting nodes without a question. -/
theorem ends_forceRemove
    (hConsistent : s.IsConsistent u)
    (nodes : List NodeId) :
    Ends (forceRemove u nodes) s
      (fun _ t => ∃ v, s.Writes (s.IsWithout u nodes) v ∧
        Forces u v true t)
      (fun _ t => (∃ h, t = s.withHost h) ∨
        ∃ v, s.Writes (s.IsWithout u nodes) v ∧
          Forces u v false t) := by
  apply ends_bind
  refine (ends_writeTrimmed hConsistent nodes).mono ?_ ?_
  · intro _ v hWrites
    refine (forces_forceCommit v).mono ?_ ?_
    · exact fun _ t hForces => ⟨v, hWrites, hForces⟩
    · exact fun _ t hForces => .inr ⟨v, hWrites, hForces⟩
  · exact fun _ _ hStop => .inl hStop

/- Dropping the blank lines of one file is a trial of edits. -/
theorem attempts_tryStrip
    (hConsistent : s.IsConsistent u)
    (i : Nat) :
    Ends (tryStrip u i) s
      (fun b t =>
        Attempts u (Scratch.IsEdited u.rules) s (some b) t)
      (fun _ t =>
        Attempts u (Scratch.IsEdited u.rules) s none t) := by
  have hRestores :
      IsShared s.workspace.scratches
        (fun f bs => f.snapshot = some bs) :=
    hConsistent.isShared
      (Q := fun snapshot bs => snapshot = some bs)
  have hShared :
      IsShared s.workspace.scratches
        (Scratch.IsEdited u.rules) :=
    hConsistent.isShared
      (Q := fun snapshot bs' =>
        ∃ bs, snapshot = some bs ∧ u.rules.Edits bs bs')
  have hSame :
      ∀ (f : Scratch) (bs : Bytes), f.snapshot = some bs →
        f.IsEdited u.rules bs :=
    fun f bs hSnapshot => ⟨bs, hSnapshot, .inl rfl⟩
  have hRestored :
      ∀ f ∈ s.workspace.scratches, ∀ h : Host,
        h.Gives f.path (.ok (f.snapshot.getD [])) f.rollBack := by
    intro f hf h
    obtain ⟨bs, hSnapshot⟩ := hConsistent.exists_snapshot f hf
    rw [hSnapshot]
    exact Scratch.gives_rollBack hSnapshot
  apply ends_bind
  refine (ends_forEach hRestores hRestored ?_).mono ?_ ?_
  · rintro f hf _ ⟨⟩
    obtain ⟨bs, hSnapshot⟩ := hConsistent.exists_snapshot f hf
    rw [hSnapshot]
    rfl
  · rintro _ _ ⟨h, rfl, hAll⟩
    apply ends_bind
    apply ends_get
    dsimp only
    split
    · obtain ⟨cs, hHolds, hRight⟩ := hAll.exists_holds
      exact attempts_tryCommit hConsistent.apart
        ⟨h, cs, rfl, hHolds, hRight.imp hSame⟩
    · rename_i f hFile
      have hf : f ∈ s.workspace.scratches :=
        List.mem_of_getElem? hFile
      obtain ⟨bs, hSnapshot⟩ := hConsistent.exists_snapshot f hf
      apply ends_bind
      apply ends_onFiles
      apply ends_onHost
      refine Ends.mono
        (Scratch.gives_writeWithoutBlankLines hSnapshot) ?_ ?_
      · intro _ h' hWritten
        have hAgain := hWritten.mono fun bs' hStripped =>
          (⟨bs, hSnapshot,
            SourceRules.edits_of_stripped hStripped⟩ :
            f.IsEdited u.rules bs')
        exact attempts_tryCommit hConsistent.apart
          (writes_of_rewritesAll
            (hAll.again hShared hSame hf hAgain))
      · exact fun _ h' _ => .stop h'
  · rintro _ _ ⟨h, rfl, _⟩
    exact .stop h

end Session

end Whittle
