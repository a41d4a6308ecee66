import Mathlib.Data.List.Induction
import Whittle.Proofs.Session.Isolation
import Whittle.Proofs.Session.Progress

/-
  Which of several variants is taken.

  Key definitions include:
    * `Session.IsSteady`
    * `Session.AsksAbout`
    * `Session.IsTurn`

  Main statements:
    * `Session.ends_tryCommit_fails`
    * `Session.ends_variant`
    * `Session.tryVariants_takesFirst`

  A variant drops out if it has no nodes, if what is left
  without them is known, if the check says no, or if not all
  files can be read.  Each of these leaves something behind
  for the variants after it, but nothing that has been
  accepted changes.
-/

------------------------------------------------------------
-- Short Contents
------------------------------------------------------------

namespace Whittle

namespace Session

open Work

variable {σ τ : Type} {u : Setup σ τ} {s t : Session σ τ}
variable {mayForce : Prop}

/- Cuts of contents whose lengths can be told are like them. -/
theorem areShort_of_isCut
    {cs : List Bytes}
    (hCharwise : u.rules.charset.IsCharwise)
    (hShort : Workspace.AreShort s.workspace.snapshots)
    (hAll : List.Forall₂ (Scratch.IsCut u.rules)
      s.workspace.scratches cs) :
    Workspace.AreShort cs := by
  intro bs' hbs'
  obtain ⟨bs, hbs, hCuts⟩ :=
    (exists_mem_of_forall₂ (cuts_of_isCut hAll)).2 bs' hbs'
  exact Nat.lt_of_le_of_lt (hCuts.length_le hCharwise)
    (hShort bs hbs)

/-
  The lengths of all that is accepted can be told.  What has
  been tried has been told, and what has been forced is a cut.
-/
theorem Operation.areShort
    (hOperation : Operation u mayForce s t)
    (hCharwise : u.rules.charset.IsCharwise)
    (hConsistent : s.IsConsistent u)
    (hShort : Workspace.AreShort s.workspace.snapshots) :
    Workspace.AreShort t.workspace.snapshots := by
  have hTried :
      ∀ {v}, Operation u False s v →
        Workspace.AreShort v.workspace.snapshots := by
    intro v hOther
    cases hOther.changes hConsistent with
    | keep hKeeps =>
        rw [hKeeps.snapshots_eq]
        exact hShort
    | accept cs _ hShort' hTakes =>
        rw [hTakes.snapshots]
        exact hShort'
    | force _ hForce => exact hForce.elim
  have hForced :
      ∀ {nodes v t' b}, s.Writes (s.IsWithout u nodes) v →
        Forces u v b t' →
        Workspace.AreShort t'.workspace.snapshots := by
    rintro nodes _ t' b ⟨h, cs, rfl, hHolds, hAll⟩ hForces
    have hKeeps := s.keeps_withHost h
    rcases hForces.cases (hKeeps.isConsistent hConsistent) with
      hKeeps' | ⟨cs', hHolds', hTakes⟩
    · rw [hKeeps'.snapshots_eq]
      exact hShort
    · obtain rfl : cs = cs' := Disk.Holds.unique hHolds hHolds'
      rw [hTakes.snapshots]
      exact areShort_of_isCut hCharwise hShort
        (hAll.imp fun _ _ hOne => hOne.1)
  cases hOperation with
  | write h => exact hTried (.write h)
  | remind memory => exact hTried (.remind memory)
  | remember memory => exact hTried (.remember memory)
  | cleanup isStrict => exact hTried (.cleanup isStrict)
  | remove nodes => exact hTried (.remove nodes)
  | strip i => exact hTried (.strip i)
  | force hForce nodes =>
      refine Ends.anyway
        (P := fun v => Workspace.AreShort v.workspace.snapshots)
        ((ends_forceRemove hConsistent nodes).mono ?_ ?_)
      · rintro _ _ ⟨v, hWrites, hForces⟩
        exact hForced hWrites hForces
      · rintro _ _ (⟨h, rfl⟩ | ⟨v, hWrites, hForces⟩)
        · exact hShort
        · exact hForced hWrites hForces

/- This stays so along all operations. -/
theorem Operates.areShort
    (hOperates : Operates u mayForce s t)
    (hCharwise : u.rules.charset.IsCharwise)
    (hConsistent : s.IsConsistent u)
    (hShort : Workspace.AreShort s.workspace.snapshots) :
    Workspace.AreShort t.workspace.snapshots := by
  induction hOperates with
  | refl => exact hShort
  | tail hFirst hOperation ih =>
      exact hOperation.areShort hCharwise
        (Operates.isConsistent hFirst hConsistent) ih

end Session

end Whittle

------------------------------------------------------------
-- Steady Sessions
------------------------------------------------------------

namespace Whittle

namespace Session

variable {σ τ : Type} {u : Setup σ τ} {s : Session σ τ}

/-
  What holds in all states that are reached, whatever has been
  forced and written before.  That what has been accepted can
  be told is known for charsets that write character by
  character.
-/
structure IsSteady
    (u : Setup σ τ)
    (s : Session σ τ) : Prop where
  consistent : s.IsConsistent u
  distinct : FilePath.AreDistinct s.paths
  files : ∀ p ∈ s.paths, s.disk.IsFile p
  short : u.rules.charset.IsCharwise →
    Workspace.AreShort s.workspace.snapshots

/- All states that are reached are steady. -/
theorem Reaches.isSteady
    {fs : List FilePair}
    {h : Host}
    {start : Session σ τ}
    (hReached : Reaches u start s)
    (hDistinct : FilePath.AreDistinct (targets fs))
    (hApart : ∀ p ∈ targets fs, u.log.IsApart p)
    (hOpen : openFiles u fs (initial u h) = (.ok (), start)) :
    s.IsSteady u := by
  have hOpened := opened_of_openFiles hDistinct hApart hOpen
  have hKept := (hOpened.kept True).follows
    (hReached.leads (hOpened.kept True).apart)
  obtain ⟨t, w, cs, hStarts, rfl⟩ := starts_of_openFiles hOpen
  have hConsistent := hStarts.isConsistent hApart
  refine ⟨hReached.operates.isConsistent hConsistent,
    hKept.distinct, hKept.files, fun hCharwise => ?_⟩
  refine hReached.operates.areShort hCharwise hConsistent ?_
  rw [hStarts.snapshots_eq]
  exact hStarts.short

end Session

end Whittle

------------------------------------------------------------
-- Writing And Trying
------------------------------------------------------------

namespace Whittle

namespace Session

open Work

variable {σ τ : Type} {u : Setup σ τ} {s t : Session σ τ}
variable {cs : List Bytes}

/- Some of the contents of files stand for no text. -/
def HasUndecodable
    (u : Setup σ τ)
    (cs : List Bytes) : Prop :=
  ∃ bs ∈ cs, ∃ e, u.rules.charset.decode bs = .error e

/- Files can be read, unless they have no texts or no trees. -/
theorem hasUndecodable_of_readAll
    {e : Failure}
    (hHolds : s.Holds cs)
    (hRead : s.workspace.readAll u.rules = .error e)
    (hOther : e ≠ .unparsable) :
    HasUndecodable u cs := by
  obtain ⟨f, hf, hFile⟩ := exists_of_mapM_eq_error hRead
  obtain ⟨bs, hbs, hBytes⟩ :=
    (exists_mem_of_forall₂ hHolds).1 f.path
      (List.mem_map_of_mem hf)
  have hTree : u.rules.readTree f.path bs = .error e :=
    (Scratch.readFile_of_read hBytes).symm.trans hFile
  exact ⟨bs, hbs, e, SourceRules.decode_of_readTree hTree hOther⟩

theorem not_hasUndecodable
    {olds : List Bytes}
    (hCharwise : u.rules.charset.IsCharwise)
    (hCuts : List.Forall₂ u.rules.Cuts olds cs) :
    ¬ HasUndecodable u cs := by
  rintro ⟨bs, hbs, e, hDecode⟩
  obtain ⟨old, _, _, _, _, _, hEncode⟩ :=
    (exists_mem_of_forall₂ hCuts).2 bs hbs
  obtain ⟨t, hText⟩ := hCharwise.exists_decode_of_encode hEncode
  cases hDecode.symm.trans hText

/-
  A trial fails only if the contents cannot be told, if the
  check fails, if its answer cannot be logged, or if the check
  says yes to contents that stand for no texts.
-/
theorem ends_tryCommit_fails
    (hApart : s.IsApart u)
    (hHolds : s.Holds cs) :
    Ends (tryCommit u) s
      (fun _ _ => True)
      (fun _ _ => ¬ Workspace.AreShort cs ∨
        (∃ e, Workspace.fingerprint cs ∉ s.known ∧
          (s.answer u).1 = .error e) ∨
        ¬ u.log.CanAdd s.disk ∨
        (Workspace.fingerprint cs ∉ s.known ∧
          (s.answer u).1 = .ok true ∧ HasUndecodable u cs)) := by
  apply ends_tryCommit_of hApart
  case hStop =>
    exact fun _ hLong => .inl (hLong cs hHolds)
  case hSkip => exact fun _ _ _ _ => trivial
  case hFail =>
    intro cs' e hNew hAnswer
    obtain rfl : cs = cs' := hHolds.unique hNew.holds
    exact .inr (.inl ⟨e, hNew.unknown, hAnswer⟩)
  case hUnlogged =>
    exact fun _ _ _ hFull => .inr (.inr (.inl hFull))
  case hRefuse => exact fun _ _ _ _ _ => trivial
  case hAccept =>
    intro cs' t hNew hAnswer _ hHolds' hStarted
    obtain rfl : cs = cs' := hHolds.unique hNew.holds
    apply ends_acceptTried hHolds'
    · exact fun _ _ => ⟨trivial, fun e hRead hOther =>
        .inr (.inr (.inr ⟨hNew.unknown, hAnswer,
          hasUndecodable_of_readAll hHolds' hRead hOther⟩))⟩
    · exact fun _ _ _ _ => ⟨trivial, absurd hStarted.canAdd⟩

/- Reporting unknown nodes fails only if it cannot be logged. -/
theorem ends_reportUnknown
    (n : Nat)
    (s : Session σ τ) :
    Ends (reportUnknown u n) s
      (fun _ t => Logs u s t ∧
        (u.log.CanAdd s.disk → u.log.CanAdd t.disk))
      (fun _ _ => ¬ u.log.CanAdd s.disk) := by
  unfold reportUnknown
  split
  · apply ends_bind
    apply ends_onFiles
    apply ends_onHost
    apply ends_modify
    refine (ends_logEvent _ _ _).mono ?_ ?_
    · rintro _ t ⟨hLogs, hStarted⟩
      refine ⟨trans_of (Logs u) ⟨_, ?_, rfl⟩ hLogs,
        fun _ => hStarted.canAdd⟩
      exact RunLog.adds_of_disk_eq rfl
    · exact fun _ _ hFull => hFull.2
  · exact ends_pure ⟨Std.Refl.refl s, fun hCan => hCan⟩

theorem outcome_remove_eq_ok_iff
    {nodes : List NodeId} :
    s.outcome u (.remove nodes) = .ok cs ↔
      s.cutOut u nodes = .ok cs := by
  unfold outcome cutOut
  rw [mapM_eq_ok_iff, mapM_eq_ok_iff]
  simp only [Request.result, cutResult_eq_ok_iff]

/- Files can be added to after cutting if they could before. -/
theorem ends_cutEach_canAdd
    (nodes : List NodeId)
    (s : Session σ τ) :
    Ends
      (onHost
        (cutEach u.rules s.workspace.scratches (.ofList nodes)))
      s
      (fun _ t => u.log.CanAdd s.disk → u.log.CanAdd t.disk)
      (fun _ _ => True) := by
  apply ends_onFiles
  apply ends_onHost
  refine (moves_cutEach (R := Host.LeavesRoom) _ _ _ _).mono ?_
    (fun _ _ _ => trivial)
  exact fun _ _ hLeaves hCan directory hDirectory =>
    hLeaves _ (hCan directory hDirectory)

/-
  Cutting nodes leaves the files with what is left without
  them.  It fails only if the cut does, or if the log cannot
  be added to.
-/
theorem ends_writeTrimmed_cutOut
    (hSteady : s.IsSteady u)
    (nodes : List NodeId) :
    Ends (writeTrimmed u nodes) s
      (fun _ t => ∃ h cs, t = s.withHost h ∧ t.Holds cs ∧
        s.cutOut u nodes = .ok cs ∧
        (u.log.CanAdd s.disk → u.log.CanAdd t.disk))
      (fun _ _ => (∃ e, s.cutOut u nodes = .error e) ∨
        ¬ u.log.CanAdd s.disk) := by
  rw [ends_congr (writeTrimmed_eq u nodes s)]
  apply ends_bind
  refine ((ends_write (.remove nodes)
    hSteady.consistent.committed hSteady.consistent.disjoint
    hSteady.distinct hSteady.files).and
      (ends_cutEach_canAdd nodes s)).mono ?_ ?_
  · rintro _ _ ⟨⟨h, cs, rfl, hHolds, hOutcome⟩, hCan⟩
    refine (ends_reportUnknown _ _).mono ?_ ?_
    · rintro _ _ ⟨⟨h', hAdds, rfl⟩, hCan'⟩
      exact ⟨h', cs, rfl,
        Holds.adds (s := s.withHost h) hHolds
          hSteady.consistent.apart hAdds,
        outcome_remove_eq_ok_iff.mp hOutcome,
        fun hBefore => hCan' (hCan hBefore)⟩
    · exact fun _ _ hFull => .inr fun hBefore => hFull (hCan hBefore)
  · rintro e _ ⟨⟨_, hOutcome⟩, _⟩
    left
    cases hCut : s.cutOut u nodes with
    | error e' => exact ⟨e', rfl⟩
    | ok cs =>
        rw [outcome_remove_eq_ok_iff.mpr hCut] at hOutcome
        cases hOutcome

end Session

end Whittle

------------------------------------------------------------
-- One Variant
------------------------------------------------------------

namespace Whittle

namespace Session

open Work

variable {σ τ : Type} {u : Setup σ τ} {s t : Session σ τ}
variable {nodes : List NodeId} {cs cs' : List Bytes}

/-
  The check is asked about nodes: there are some, what is left
  of the accepted contents without them is not known, and the
  check answers when it has been written.
-/
structure AsksAbout
    (u : Setup σ τ)
    (s : Session σ τ)
    (nodes : List NodeId)
    (cs : List Bytes)
    (result : Except Failure Bool) : Prop where
  nonempty : nodes ≠ []
  cut : s.cutOut u nodes = .ok cs
  unknown : Workspace.fingerprint cs ∉ s.known
  answered : ((writeTrimmed u nodes s).2.answer u).1 = result

/- The check says yes, and all files can be read. -/
def IsAcceptable
    (u : Setup σ τ)
    (s : Session σ τ)
    (nodes : List NodeId)
    (cs : List Bytes) : Prop :=
  s.AsksAbout u nodes cs (.ok true) ∧
    u.rules.AreReadable s.paths cs

/- Whether nodes are acceptable can be computed. -/
theorem isAcceptable_iff :
    s.IsAcceptable u nodes cs ↔
      nodes ≠ [] ∧
        (s.cutOut u nodes).toOption = some cs ∧
        Workspace.fingerprint cs ∉ s.known ∧
        ((writeTrimmed u nodes s).2.answer u).1.toOption =
          some true ∧
        u.rules.AreReadable s.paths cs := by
  constructor
  · rintro ⟨⟨hNodes, hCut, hUnknown, hAnswer⟩, hReadable⟩
    rw [hCut, hAnswer]
    exact ⟨hNodes, rfl, hUnknown, rfl, hReadable⟩
  · rintro ⟨hNodes, hCut, hUnknown, hAnswer, hReadable⟩
    exact ⟨⟨hNodes, eq_ok_of_toOption hCut, hUnknown,
      eq_ok_of_toOption hAnswer⟩, hReadable⟩

instance : Decidable (s.IsAcceptable u nodes cs) :=
  decidable_of_iff _ isAcceptable_iff.symm

/- The check says no, or not all files can be read. -/
def IsRefused
    (u : Setup σ τ)
    (s : Session σ τ)
    (nodes : List NodeId)
    (cs : List Bytes) : Prop :=
  s.AsksAbout u nodes cs (.ok false) ∨
    s.AsksAbout u nodes cs (.ok true) ∧
      ¬ u.rules.AreReadable s.paths cs

/-
  Why removing nodes can fail.
    * `cut` : they cannot be cut out.
    * `check` : the check fails.
    * `log` : the log cannot be added to.
    * `length`, `text` : what is left is too long to be told,
      or the check says yes to it and it stands for no text.
      This does not happen where the charset writes character
      by character.
-/
inductive Breaks
    (u : Setup σ τ)
    (s : Session σ τ)
    (nodes : List NodeId) : Prop
| cut (e : Failure)
    (hNodes : nodes ≠ [])
    (hCut : s.cutOut u nodes = .error e)
| check (cs : List Bytes) (e : Failure)
    (hAsks : s.AsksAbout u nodes cs (.error e))
| log
    (hNodes : nodes ≠ [])
    (hFull : ¬ u.log.CanAdd s.disk)
| length (cs : List Bytes)
    (hCharset : ¬ u.rules.charset.IsCharwise)
    (hNodes : nodes ≠ [])
    (hCut : s.cutOut u nodes = .ok cs)
    (hLong : ¬ Workspace.AreShort cs)
| text (cs : List Bytes)
    (hCharset : ¬ u.rules.charset.IsCharwise)
    (hAsks : s.AsksAbout u nodes cs (.ok true))
    (hLost : HasUndecodable u cs)

/-
  Nodes drop out.  What has been accepted is kept, and nothing
  becomes known but what has just been refused.
-/
structure DropsOut
    (u : Setup σ τ)
    (s : Session σ τ)
    (nodes : List NodeId)
    (t : Session σ τ) : Prop where
  keeps : s.Keeps t
  declined : ∀ cs, ¬ s.IsAcceptable u nodes cs
  known : ∀ k, k ∈ t.known ↔
    k ∈ s.known ∨
      ∃ cs, s.IsRefused u nodes cs ∧ k = Workspace.fingerprint cs

theorem AsksAbout.unique
    {result result' : Except Failure Bool}
    (hAsks : s.AsksAbout u nodes cs result)
    (hAsks' : s.AsksAbout u nodes cs' result') :
    cs = cs' ∧ result = result' := by
  refine ⟨?_, hAsks.answered.symm.trans hAsks'.answered⟩
  exact Except.ok.inj (hAsks.cut.symm.trans hAsks'.cut)

theorem IsRefused.not_isAcceptable
    (hRefused : s.IsRefused u nodes cs) :
    ¬ s.IsAcceptable u nodes cs' := by
  rintro ⟨hAsks, hReadable⟩
  rcases hRefused with hNo | ⟨hYes, hUnreadable⟩
  · obtain ⟨_, hSame⟩ := hNo.unique hAsks
    cases hSame
  · obtain ⟨rfl, _⟩ := hYes.unique hAsks
    exact hUnreadable hReadable

theorem dropsOut_of_skip
    (hKeeps : s.Keeps t)
    (hKnown : t.known = s.known)
    (hNone : ∀ cs result, ¬ s.AsksAbout u nodes cs result) :
    s.DropsOut u nodes t where
  keeps := hKeeps
  declined _ hAcceptable := hNone _ _ hAcceptable.1
  known k := by
    rw [hKnown]
    refine ⟨.inl, ?_⟩
    rintro (hOld | ⟨cs, hNo | ⟨hYes, _⟩, _⟩)
    · exact hOld
    · exact absurd hNo (hNone _ _)
    · exact absurd hYes (hNone _ _)

theorem dropsOut_of_isRefused
    (hKeeps : s.Keeps t)
    (hKnown : t.known = Workspace.fingerprint cs :: s.known)
    (hRefused : s.IsRefused u nodes cs) :
    s.DropsOut u nodes t where
  keeps := hKeeps
  declined _ := hRefused.not_isAcceptable
  known k := by
    rw [hKnown, List.mem_cons]
    constructor
    · rintro (rfl | hOld)
      · exact .inr ⟨cs, hRefused, rfl⟩
      · exact .inl hOld
    · rintro (hOld | ⟨cs', hRefused', rfl⟩)
      · exact .inr hOld
      · have hCut : ∀ {cs''}, s.IsRefused u nodes cs'' →
            s.cutOut u nodes = .ok cs'' := by
          rintro cs'' (hNo | ⟨hYes, _⟩)
          · exact hNo.cut
          · exact hYes.cut
        have hSame :=
          Except.ok.inj ((hCut hRefused).symm.trans (hCut hRefused'))
        rw [hSame]
        exact .inl rfl

/- What is left without some nodes has been written. -/
structure HasWritten
    (u : Setup σ τ)
    (s : Session σ τ)
    (nodes : List NodeId)
    (h : Host)
    (cs : List Bytes) : Prop where
  nonempty : nodes ≠ []
  run : writeTrimmed u nodes s = (.ok (), s.withHost h)
  holds : (s.withHost h).Holds cs
  cut : s.cutOut u nodes = .ok cs

namespace HasWritten

variable {h : Host}

/- If it is not known the check is asked about it. -/
theorem asksAbout
    {result : Except Failure Bool}
    (hWritten : s.HasWritten u nodes h cs)
    (hUnknown : Workspace.fingerprint cs ∉ s.known)
    (hAnswer : ((s.withHost h).answer u).1 = result) :
    s.AsksAbout u nodes cs result := by
  refine ⟨hWritten.nonempty, hWritten.cut, hUnknown, ?_⟩
  rw [hWritten.run]
  exact hAnswer

/- It is a cut of what has been accepted. -/
theorem isCut
    (hWritten : s.HasWritten u nodes h cs) :
    List.Forall₂ (Scratch.IsCut u.rules)
      s.workspace.scratches cs :=
  (mapM_eq_ok_iff.mp hWritten.cut).imp
    fun _ _ hOne => Scratch.isCut_of_cutOut hOne

/- A trial in which it is accepted. -/
theorem takes
    (hWritten : s.HasWritten u nodes h cs)
    (hSteady : s.IsSteady u)
    (hTries : Tries u (s.withHost h) (some true) t) :
    s.IsAcceptable u nodes cs ∧
      s.Takes u (.asked cs (some true)) cs t := by
  have hConsistent : (s.withHost h).IsConsistent u :=
    (s.keeps_withHost h).isConsistent hSteady.consistent
  rcases hTries.cases hConsistent with
    ⟨_, hResult⟩ | ⟨cs', hNew, hTakes, _, _⟩
  · exact absurd rfl hResult
  obtain rfl : cs = cs' := hWritten.holds.unique hNew.holds
  refine ⟨?_, hTakes.of_withHost⟩
  cases hTries with
  | unreadable _ _ _ _ _ _ _ _ _ hResult => exact absurd rfl hResult
  | accept cs' v _ w _ hNew' hAnswer hLogs hHolds hCommits =>
      obtain rfl : cs = cs' := hWritten.holds.unique hNew'.holds
      have hPaths : v.paths = s.paths := hLogs.paths_eq
      refine ⟨hWritten.asksAbout hNew.unknown hAnswer, ?_⟩
      rw [← hPaths]
      exact hCommits.areReadable hHolds

/- A trial in which it is not accepted. -/
theorem dropsOut
    (hWritten : s.HasWritten u nodes h cs)
    (hSteady : s.IsSteady u)
    (hTries : Tries u (s.withHost h) (some false) t) :
    s.DropsOut u nodes t := by
  have hConsistent : (s.withHost h).IsConsistent u :=
    (s.keeps_withHost h).isConsistent hSteady.consistent
  have hKeeps : s.Keeps t := by
    rcases hTries.cases hConsistent with
      ⟨hKeeps, _⟩ | ⟨_, _, _, _, hResult⟩
    · exact trans_of Keeps (s.keeps_withHost h) hKeeps
    · exact absurd rfl hResult
  cases hTries with
  | skip cs' hHolds _ hKnown =>
      obtain rfl : cs = cs' := hWritten.holds.unique hHolds
      refine dropsOut_of_skip hKeeps rfl fun cs' result hAsks => ?_
      obtain rfl : cs = cs' :=
        Except.ok.inj (hWritten.cut.symm.trans hAsks.cut)
      exact hAsks.unknown hKnown
  | refuse cs' _ hNew hAnswer hLogs =>
      obtain rfl : cs = cs' := hWritten.holds.unique hNew.holds
      obtain ⟨h', _, rfl⟩ := hLogs
      exact dropsOut_of_isRefused hKeeps rfl
        (.inl (hWritten.asksAbout hNew.unknown hAnswer))
  | unreadable cs' v w _ hNew hAnswer hLogs hHolds hRefuses =>
      obtain rfl : cs = cs' := hWritten.holds.unique hNew.holds
      have hPaths : v.paths = s.paths := hLogs.paths_eq
      have hUnreadable := hRefuses.not_areReadable hHolds
      obtain ⟨h', _, rfl⟩ := hLogs
      exact dropsOut_of_isRefused hKeeps rfl
        (.inr ⟨hWritten.asksAbout hNew.unknown hAnswer, hUnreadable⟩)
  | accept _ _ _ _ _ _ _ _ _ _ _ hResult => exact absurd rfl hResult

end HasWritten

/-
  Removing nodes takes what is left without them if that is
  acceptable.  Otherwise they drop out, unless something fails.
-/
theorem ends_variant
    (hSteady : s.IsSteady u)
    (nodes : List NodeId) :
    Ends (tryRemove u nodes) s
      (fun outcome t =>
        (outcome = .progressed ∧ ∃ cs, s.IsAcceptable u nodes cs ∧
            s.Takes u (.asked cs (some true)) cs t) ∨
          (outcome = .noProgress ∧ s.DropsOut u nodes t))
      (fun _ _ => s.Breaks u nodes) := by
  by_cases hNodes : nodes = []
  · subst hNodes
    exact ends_pure (.inr ⟨rfl, dropsOut_of_skip (Std.Refl.refl s)
      rfl fun _ _ hAsks => hAsks.nonempty rfl⟩)
  unfold tryRemove
  rw [if_neg (by simpa using hNodes)]
  apply ends_bind
  have hEnds := ends_writeTrimmed_cutOut hSteady nodes
  rcases hWrite : writeTrimmed u nodes s with ⟨e | _, v⟩
  · apply ends_of_eq_error hWrite
    rcases hEnds.of_error hWrite with ⟨e', hCut⟩ | hFull
    · exact .cut e' hNodes hCut
    · exact .log hNodes hFull
  · obtain ⟨h, cs, rfl, hHolds, hCut, hCan⟩ := hEnds.of_ok hWrite
    have hWritten : s.HasWritten u nodes h cs :=
      ⟨hNodes, hWrite, hHolds, hCut⟩
    have hApart : (s.withHost h).IsApart u :=
      hSteady.consistent.apart
    apply ends_of_eq_ok hWrite
    apply ends_bind
    refine ((tries_tryCommit hApart).and
      (ends_tryCommit_fails hApart hHolds)).mono ?_ ?_
    · rintro b t ⟨hTries, _⟩
      cases b with
      | true =>
          have hTakes := hWritten.takes hSteady hTries
          exact ends_pure (.inl ⟨rfl, cs, hTakes⟩)
      | false =>
          have hDropsOut := hWritten.dropsOut hSteady hTries
          exact ends_pure (.inr ⟨rfl, hDropsOut⟩)
    · rintro _ _ ⟨_, hLong | ⟨e, hUnknown, hAnswer⟩ | hFull |
        ⟨hUnknown, hAnswer, hLost⟩⟩
      · refine .length cs (fun hCharwise => ?_) hNodes hCut hLong
        exact hLong (areShort_of_isCut hCharwise
          (hSteady.short hCharwise) hWritten.isCut)
      · exact .check cs e (hWritten.asksAbout hUnknown hAnswer)
      · exact .log hNodes fun hBefore => hFull (hCan hBefore)
      · refine .text cs (fun hCharwise => ?_)
          (hWritten.asksAbout hUnknown hAnswer) hLost
        exact not_hasUndecodable hCharwise
          (cuts_of_isCut hWritten.isCut) hLost

end Session

end Whittle

------------------------------------------------------------
-- Turns
------------------------------------------------------------

namespace Whittle

namespace Session

open Work

variable {σ τ : Type} {u : Setup σ τ} {s t v : Session σ τ}
variable {variants passed : List (List NodeId)}
variable {nodes : List NodeId} {cs : List Bytes}

/-
  The turn of a variant.  Those before it have been tried, and
  have made no progress.  `v` is the state that this leads to.
-/
def IsTurn
    (u : Setup σ τ)
    (s : Session σ τ)
    (variants passed : List (List NodeId))
    (nodes : List NodeId)
    (v : Session σ τ) : Prop :=
  passed ++ [nodes] <+: variants ∧
    tryVariants u passed s = (.ok .noProgress, v)

/-
  The first acceptable variant is taken.
    * `turn`, `acceptable` : at its turn it is acceptable.
    * `first` : none of those before it was.
    * `last` : nothing is done after it has been tried.
    * `takes` : what is left without it has been accepted, just
      after the check has said yes to it.
-/
structure TakesFirst
    (u : Setup σ τ)
    (s : Session σ τ)
    (variants passed : List (List NodeId))
    (nodes : List NodeId)
    (v : Session σ τ)
    (cs : List Bytes)
    (t : Session σ τ) : Prop where
  turn : s.IsTurn u variants passed nodes v
  acceptable : v.IsAcceptable u nodes cs
  first : ∀ passed' nodes' v' cs',
    s.IsTurn u passed passed' nodes' v' →
    ¬ v'.IsAcceptable u nodes' cs'
  last : tryVariants u (passed ++ [nodes]) s = (.ok .progressed, t)
  takes : v.Takes u (.asked cs (some true)) cs t

/-
  All variants have dropped out.
    * `turns`, `declined` : each has had its turn, and was not
      acceptable.
    * `scratches`, `roots` : the accepted contents, trees and
      nodes are what they were.
    * `known` : only what has been refused is known now, and
      was not before.
-/
structure PassesOver
    (u : Setup σ τ)
    (s : Session σ τ)
    (variants : List (List NodeId))
    (t : Session σ τ) : Prop where
  turns : ∀ passed nodes, passed ++ [nodes] <+: variants →
    ∃ v, s.IsTurn u variants passed nodes v
  declined : ∀ passed nodes v cs,
    s.IsTurn u variants passed nodes v → ¬ v.IsAcceptable u nodes cs
  scratches : t.workspace.scratches = s.workspace.scratches
  roots : t.roots = s.roots
  known : ∀ k, k ∈ t.known ↔
    k ∈ s.known ∨
      ∃ passed nodes v cs, s.IsTurn u variants passed nodes v ∧
        v.IsRefused u nodes cs ∧ k = Workspace.fingerprint cs

theorem tryVariants_append
    (passed rest : List (List NodeId)) :
    tryVariants u (passed ++ rest) =
      (do
        let outcome ← tryVariants u passed
        if outcome = .noProgress then
          tryVariants u rest
        else
          pure outcome) := by
  induction passed with
  | nil => rfl
  | cons nodes passed ih =>
      rw [List.cons_append, tryVariants, tryVariants, ih, bind_assoc]
      congr 1
      funext outcome
      split
      · rfl
      · rename_i hOutcome
        rw [pure_bind, if_neg hOutcome]

theorem tryVariants_singleton
    (nodes : List NodeId) :
    tryVariants u [nodes] = tryRemove u nodes := by
  unfold tryVariants tryVariants
  conv => rhs; rw [← bind_pure (tryRemove u nodes)]
  congr 1
  funext outcome
  split
  · rename_i hOutcome
    rw [hOutcome]
  · rfl

theorem isTurn_concat
    {last : List NodeId} :
    s.IsTurn u (variants ++ [last]) passed nodes v ↔
      s.IsTurn u variants passed nodes v ∨
        passed = variants ∧ nodes = last ∧
          tryVariants u variants s = (.ok .noProgress, v) := by
  have hLast :
      passed ++ [nodes] = variants ++ [last] ↔
        passed = variants ∧ nodes = last := by
    simp
  unfold IsTurn
  rw [List.prefix_concat_iff, hLast]
  constructor
  · rintro ⟨⟨rfl, rfl⟩ | hEarlier, hRun⟩
    · exact .inr ⟨rfl, rfl, hRun⟩
    · exact .inl ⟨hEarlier, hRun⟩
  · rintro (⟨hEarlier, hRun⟩ | ⟨rfl, rfl, hRun⟩)
    · exact ⟨.inr hEarlier, hRun⟩
    · exact ⟨.inl ⟨rfl, rfl⟩, hRun⟩

/- Turns stay turns if there are more variants. -/
theorem IsTurn.concat
    (hTurn : s.IsTurn u variants passed nodes v)
    (last : List NodeId) :
    s.IsTurn u (variants ++ [last]) passed nodes v :=
  isTurn_concat.mpr (.inl hTurn)

/- If all variants have dropped out so may one more. -/
theorem PassesOver.concat
    {last : List NodeId}
    (hPasses : s.PassesOver u variants v)
    (hRun : tryVariants u variants s = (.ok .noProgress, v))
    (hDropsOut : v.DropsOut u last t) :
    s.PassesOver u (variants ++ [last]) t where
  turns passed nodes hPrefix := by
    rcases List.prefix_concat_iff.mp hPrefix with hLast | hEarlier
    · obtain ⟨rfl, _⟩ := List.append_inj' hLast rfl
      exact ⟨v, hPrefix, hRun⟩
    · obtain ⟨w, hTurn⟩ := hPasses.turns passed nodes hEarlier
      exact ⟨w, hTurn.concat last⟩
  declined passed nodes w cs hTurn := by
    rcases isTurn_concat.mp hTurn with
      hEarlier | ⟨rfl, rfl, hSame⟩
    · exact hPasses.declined passed nodes w cs hEarlier
    · rw [hRun] at hSame
      cases hSame
      exact hDropsOut.declined cs
  scratches := hDropsOut.keeps.scratches.trans hPasses.scratches
  roots := hDropsOut.keeps.roots.trans hPasses.roots
  known k := by
    rw [hDropsOut.known, hPasses.known, or_assoc]
    refine or_congr_right ?_
    constructor
    · rintro (⟨passed, nodes, w, cs, hTurn, hRefused⟩ |
        ⟨cs, hRefused⟩)
      · exact ⟨passed, nodes, w, cs, hTurn.concat last, hRefused⟩
      · exact ⟨variants, last, v, cs,
          isTurn_concat.mpr (.inr ⟨rfl, rfl, hRun⟩), hRefused⟩
    · rintro ⟨passed, nodes, w, cs, hTurn, hRefused⟩
      rcases isTurn_concat.mp hTurn with
        hEarlier | ⟨rfl, rfl, hSame⟩
      · exact .inl ⟨passed, nodes, w, cs, hEarlier, hRefused⟩
      · rw [hRun] at hSame
        cases hSame
        exact .inr ⟨cs, hRefused⟩

/-
  Trying several variants in turn, by induction on how many
  there are: the last of them has its turn if all before it
  have dropped out.
-/
theorem ends_tryVariants
    (hSteady : ∀ v, Reaches u s v → v.IsSteady u)
    (variants : List (List NodeId)) :
    Ends (tryVariants u variants) s
      (fun outcome t =>
        (outcome = .progressed ∧
          ∃ passed nodes v cs,
            s.TakesFirst u variants passed nodes v cs t) ∨
        (outcome = .noProgress ∧ s.PassesOver u variants t))
      (fun _ _ => ∃ passed nodes v,
        s.IsTurn u variants passed nodes v ∧ v.Breaks u nodes) := by
  induction variants using List.reverseRecOn with
  | nil =>
      refine ends_pure (.inr ⟨rfl, ?_, ?_, rfl, rfl, ?_⟩)
      · exact fun passed nodes hPrefix => by simp at hPrefix
      · exact fun passed nodes v cs hTurn => by
          simp [IsTurn] at hTurn
      · exact fun k => by simp [IsTurn]
  | append_singleton variants last ih =>
      rw [tryVariants_append]
      apply ends_bind
      rcases hRun : tryVariants u variants s with ⟨e | outcome, v⟩
      · apply ends_of_eq_error hRun
        obtain ⟨passed, nodes, w, hTurn, hBreaks⟩ :=
          ih.of_error hRun
        exact ⟨passed, nodes, w, hTurn.concat last, hBreaks⟩
      apply ends_of_eq_ok hRun
      rcases ih.of_ok hRun with
        ⟨rfl, passed, nodes, w, cs, hTakes⟩ | ⟨rfl, hPasses⟩
      · rw [if_neg Outcome.noConfusion]
        exact ends_pure (.inl ⟨rfl, passed, nodes, w, cs,
          { hTakes with turn := hTakes.turn.concat last }⟩)
      have hTurn :
          s.IsTurn u (variants ++ [last]) variants last v :=
        isTurn_concat.mpr (.inr ⟨rfl, rfl, hRun⟩)
      have hReached : Reaches u s v := by
        have hActs : Acts u s (tryVariants u variants s).2 :=
          .offer variants
        rw [hRun] at hActs
        exact .single hActs
      have hEnds := ends_variant (hSteady v hReached) last
      rw [if_pos rfl, tryVariants_singleton]
      rcases hLast : tryRemove u last v with ⟨e | outcome, t⟩
      · apply ends_of_eq_error hLast
        exact ⟨variants, last, v, hTurn, hEnds.of_error hLast⟩
      apply ends_of_eq_ok hLast
      rcases hEnds.of_ok hLast with
        ⟨rfl, cs, hAcceptable, hTakes⟩ | ⟨rfl, hDropsOut⟩
      · refine .inl ⟨rfl, variants, last, v, cs, hTurn, hAcceptable,
          hPasses.declined, ?_, hTakes⟩
        rw [tryVariants_append, bind_of_ok hRun, if_pos rfl,
          tryVariants_singleton, hLast]
      · exact .inr ⟨rfl, hPasses.concat hRun hDropsOut⟩

/-
  Trying several variants in a state that a run can reach.  It
  makes progress exactly if one of them is acceptable at its
  turn.  The first such variant is taken, and nothing is done
  for those after it.  Otherwise all of them have dropped out:
  what has been accepted is as before, and what is known now
  was known before or has just been refused.  If trying fails
  it is because a cut or the check does at some turn, because
  the log cannot be written to, or because what is left cannot
  be told or decoded.
-/
theorem tryVariants_takesFirst
    {fs : List FilePair}
    {h : Host}
    {start : Session σ τ}
    (hDistinct : FilePath.AreDistinct (targets fs))
    (hApart : ∀ p ∈ targets fs, u.log.IsApart p)
    (hOpen : openFiles u fs (initial u h) = (.ok (), start))
    (hReached : Reaches u start s)
    (variants : List (List NodeId)) :
    Ends (tryVariants u variants) s
      (fun outcome t =>
        (outcome = .progressed ↔
          ∃ passed nodes v cs, s.IsTurn u variants passed nodes v ∧
            v.IsAcceptable u nodes cs) ∧
        (outcome = .progressed →
          ∃ passed nodes v cs,
            s.TakesFirst u variants passed nodes v cs t) ∧
        (outcome ≠ .progressed →
          outcome = .noProgress ∧ s.PassesOver u variants t))
      (fun _ _ => ∃ passed nodes v,
        s.IsTurn u variants passed nodes v ∧ v.Breaks u nodes) := by
  have hSteady : ∀ v, Reaches u s v → v.IsSteady u :=
    fun v hMore => Reaches.isSteady
      (Relation.ReflTransGen.trans hReached hMore)
      hDistinct hApart hOpen
  refine (ends_tryVariants hSteady variants).mono ?_
    (fun _ _ hBreaks => hBreaks)
  rintro _ t (⟨rfl, passed, nodes, v, cs, hTakes⟩ | ⟨rfl, hPasses⟩)
  · refine ⟨⟨fun _ => ?_, fun _ => rfl⟩, fun _ => ?_, absurd rfl⟩
    · exact ⟨passed, nodes, v, cs, hTakes.turn, hTakes.acceptable⟩
    · exact ⟨passed, nodes, v, cs, hTakes⟩
  · refine ⟨⟨Outcome.noConfusion, ?_⟩, Outcome.noConfusion,
      fun _ => ⟨rfl, hPasses⟩⟩
    rintro ⟨passed, nodes, v, cs, hTurn, hAcceptable⟩
    exact absurd hAcceptable
      (hPasses.declined passed nodes v cs hTurn)

/-
  No nodes at all and a node that is unknown drop out, and the
  first character of the one line is removed after that.
-/
theorem tryVariants_takesFirst_small :
    ∃ start t passed nodes v cs,
      greedyOpened (fun _ => true) "b" [65, 66] =
          (.ok (), start) ∧
        tryVariants (greedySetup fun _ => true)
          [[], [⟨7, 0⟩], [⟨0, 1⟩], [⟨0, 0⟩]] start =
            (.ok .progressed, t) ∧
        start.TakesFirst (greedySetup fun _ => true)
          [[], [⟨7, 0⟩], [⟨0, 1⟩], [⟨0, 0⟩]] passed nodes v cs t ∧
        t.workspace.snapshots = [[66]] := by
  have hOpened :
      (greedyOpened (fun _ => true) "b"
        [65, 66]).1.toOption.isSome := by
    decide +kernel
  have hProgressed :
      (tryVariants (greedySetup fun _ => true)
        [[], [⟨7, 0⟩], [⟨0, 1⟩], [⟨0, 0⟩]]
        (greedyOpened (fun _ => true) "b"
          [65, 66]).2).1.toOption = some .progressed := by
    decide +kernel
  have hSnapshots :
      (tryVariants (greedySetup fun _ => true)
        [[], [⟨7, 0⟩], [⟨0, 1⟩], [⟨0, 0⟩]]
        (greedyOpened (fun _ => true) "b"
          [65, 66]).2).2.workspace.snapshots = [[66]] := by
    decide +kernel
  obtain ⟨_, hOpen⟩ := eq_of_isSome hOpened
  have hRun := eq_of_toOption hProgressed
  have hEnds :=
    tryVariants_takesFirst (by decide +kernel) (by decide +kernel)
      hOpen .refl [[], [⟨7, 0⟩], [⟨0, 1⟩], [⟨0, 0⟩]]
  obtain ⟨_, hFirst, _⟩ := hEnds.of_ok hRun
  obtain ⟨passed, nodes, v, cs, hTakes⟩ := hFirst rfl
  exact ⟨_, _, passed, nodes, v, cs, hOpen, hRun, hTakes,
    hSnapshots⟩

/- The files of a small run whose events cannot be logged. -/
def blockedOpened :
    Except Failure Unit × Session Unit Greedy.Memory :=
  openFiles (greedySetup fun _ => true) [⟨"a", "b"⟩]
    (initial (greedySetup fun _ => true)
      (.ofDisk
        ⟨[(.ofText "a", .file [65, 66]),
          (.ofText "log", .directory),
          (.ofText "log/events.ndjson", .directory)]⟩))

/-
  A codec that writes what it cannot read back, for all texts
  but one.  This text is read from two files.
-/
def lossyCodec : Codec where
  decode? bs :=
    if bs = [1] || bs = [65, 66] then some ['A', 'B'] else none
  encode? t :=
    if t = ['A', 'B'] then some [65, 66] else some [200]

/- The small greedy setup with this codec. -/
def lossySetup : Setup Unit Greedy.Memory :=
  { greedySetup fun _ => true with
    rules := ⟨oneLine, .known lossyCodec, false⟩ }

/- A file of this codec that is opened for a small run. -/
def lossyOpened :
    Except Failure Unit × Session Unit Greedy.Memory :=
  openFiles lossySetup [⟨"a", "b"⟩]
    (initial lossySetup
      (.ofDisk
        ⟨[(.ofText "a", .file [1]), (.ofText "log", .directory)]⟩))

/-
  If the output is the file of the events of the run, the
  answer of the check has been logged to it before it is read,
  and a variant that is acceptable is not taken.  If the events
  cannot be logged it is not taken either: trying it fails,
  although neither the cut nor the check does.  So does trying
  a variant of which the file cannot be read back, and the
  acceptable one after it has no turn.
-/
theorem exists_notTaken :
    (∃ start t,
      greedyOpened (fun _ => true) "log/events.ndjson" [65, 66] =
          (.ok (), start) ∧
        FilePath.AreDistinct
          (targets [⟨"a", "log/events.ndjson"⟩]) ∧
        start.IsAcceptable (greedySetup fun _ => true)
          [⟨0, 1⟩] [[66]] ∧
        tryVariants (greedySetup fun _ => true) [[⟨0, 1⟩]] start =
          (.ok .noProgress, t)) ∧
      (∃ start,
        blockedOpened = (.ok (), start) ∧
          FilePath.AreDistinct (targets [⟨"a", "b"⟩]) ∧
          start.IsAcceptable (greedySetup fun _ => true)
            [⟨0, 1⟩] [[66]] ∧
          (tryVariants (greedySetup fun _ => true) [[⟨0, 1⟩]]
            start).1.toOption = none) ∧
      ∃ start,
        lossyOpened = (.ok (), start) ∧
          FilePath.AreDistinct (targets [⟨"a", "b"⟩]) ∧
          start.AsksAbout lossySetup [⟨0, 1⟩] [[200]]
            (.ok true) ∧
          start.IsAcceptable lossySetup [⟨7, 0⟩] [[65, 66]] ∧
          (tryVariants lossySetup [[⟨0, 1⟩], [⟨7, 0⟩]]
            start).1.toOption = none := by
  refine ⟨?shared, ?blocked, ?lossy⟩
  case shared =>
    have hOpened :
        (greedyOpened (fun _ => true) "log/events.ndjson"
          [65, 66]).1.toOption.isSome := by
      decide +kernel
    have hAcceptable :
        (greedyOpened (fun _ => true) "log/events.ndjson"
          [65, 66]).2.IsAcceptable (greedySetup fun _ => true)
            [⟨0, 1⟩] [[66]] := by
      decide +kernel
    have hOutcome :
        (tryVariants (greedySetup fun _ => true) [[⟨0, 1⟩]]
          (greedyOpened (fun _ => true) "log/events.ndjson"
            [65, 66]).2).1.toOption = some .noProgress := by
      decide +kernel
    obtain ⟨_, hOpen⟩ := eq_of_isSome hOpened
    exact ⟨_, _, hOpen, by decide +kernel, hAcceptable,
      eq_of_toOption hOutcome⟩
  case blocked =>
    have hOpened : blockedOpened.1.toOption.isSome := by
      decide +kernel
    have hAcceptable :
        blockedOpened.2.IsAcceptable (greedySetup fun _ => true)
          [⟨0, 1⟩] [[66]] := by
      decide +kernel
    have hFails :
        (tryVariants (greedySetup fun _ => true) [[⟨0, 1⟩]]
          blockedOpened.2).1.toOption = none := by
      decide +kernel
    obtain ⟨_, hOpen⟩ := eq_of_isSome hOpened
    exact ⟨_, hOpen, by decide +kernel, hAcceptable, hFails⟩
  case lossy =>
    have hOpened : lossyOpened.1.toOption.isSome := by
      decide +kernel
    have hAsks :
        lossyOpened.2.AsksAbout lossySetup [⟨0, 1⟩] [[200]]
          (.ok true) := by
      refine ⟨by decide, eq_ok_of_toOption ?_, by decide +kernel,
        eq_ok_of_toOption ?_⟩
      · decide +kernel
      · decide +kernel
    have hAcceptable :
        lossyOpened.2.IsAcceptable lossySetup [⟨7, 0⟩]
          [[65, 66]] := by
      decide +kernel
    have hFails :
        (tryVariants lossySetup [[⟨0, 1⟩], [⟨7, 0⟩]]
          lossyOpened.2).1.toOption = none := by
      decide +kernel
    obtain ⟨_, hOpen⟩ := eq_of_isSome hOpened
    exact ⟨_, hOpen, by decide +kernel, hAsks, hAcceptable,
      hFails⟩

end Session

end Whittle
