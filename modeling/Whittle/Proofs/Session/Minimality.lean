import Whittle.Proofs.Session.Passes
import Whittle.Proofs.Session.Progress
import Whittle.Proofs.Session.Reporting
import Whittle.Proofs.Session.Soundness

/-
  What a greedy run leaves cannot be cut any further.

  Key definitions include:
    * `Check.Decides`
    * `Session.IsRuledOut`
    * `Session.IsJudged`
    * `Session.IsDoneWith`

  Main statements:
    * `Session.Attempts.isJudged`
    * `Session.PassesEnd.exists_lastPass`
    * `Session.greedy_isDone`

  The last pass tries everything that it offers, so all of
  that is known.  What is known has been accepted before, and
  then it was more than what is accepted now, or it has been
  ruled out for good.
-/

------------------------------------------------------------
-- Contents That Are Ruled Out
------------------------------------------------------------

namespace Whittle

/-
  The answers of a check depend on nothing but what the files
  hold.  It may fail instead of giving an answer.
-/
def Check.Decides
    {σ : Type}
    (check : Check σ)
    (ps : List FilePath)
    (verdict : List Bytes → Bool) : Prop :=
  ∀ memory view cs b,
    view.files = ps → view.disk.Holds ps cs →
      (check.ask memory view).1 = .ok b → b = verdict cs

namespace Session

variable {σ τ : Type} {u : Setup σ τ}
variable {verdict : List Bytes → Bool}

/- Contents that cannot be read, or that the check rejects. -/
def IsRuledOut
    (u : Setup σ τ)
    (verdict : List Bytes → Bool)
    (s : Session σ τ)
    (cs : List Bytes) : Prop :=
  ¬ u.rules.AreReadable s.paths cs ∨ verdict cs = false

/-
  What is known of a trial that has given a result.  Either
  it was skipped, or its contents are known from then on.  They
  are ruled out unless they have been accepted.
-/
theorem Tries.learns
    {s t : Session σ τ}
    {b : Bool}
    (hTries : Tries u s (some b) t)
    (hConsistent : s.IsConsistent u)
    (hDecides : u.check.Decides s.paths verdict) :
    (s.Keeps t ∧ t.known = s.known) ∨
      ∃ cs, s.IsNew cs ∧
        t.known = Workspace.fingerprint cs :: s.known ∧
        ((s.Keeps t ∧ s.IsRuledOut u verdict cs) ∨
          s.Takes u (.asked cs (some true)) cs t) := by
  have hAsked :
      ∀ {cs v}, Logs u (s.afterAsking u cs) v →
        s.Keeps v ∧
          v.known = Workspace.fingerprint cs :: s.known := by
    rintro cs v ⟨h, _, rfl⟩
    exact ⟨trans_of Keeps (s.keeps_afterAsking cs)
      (keeps_withHost _ h), rfl⟩
  rcases hTries.cases hConsistent with
    ⟨hKeeps, hResult⟩ | ⟨cs, hNew, hTakes, hKnown, _⟩
  · cases hTries with
    | skip cs => exact .inl ⟨hKeeps, rfl⟩
    | refuse cs _ hNew hAnswer hLogs =>
        have hNo : false = verdict cs :=
          hDecides s.check (view u s) cs false rfl hNew.holds hAnswer
        exact .inr ⟨cs, hNew, (hAsked hLogs).2,
          .inl ⟨hKeeps, .inr hNo.symm⟩⟩
    | unreadable cs v w _ hNew _ hLogs hHolds hRefuses =>
        obtain ⟨hKept, hKnown⟩ := hAsked hLogs
        refine .inr ⟨cs, hNew, hKnown, .inl ⟨hKeeps, .inl ?_⟩⟩
        rw [← hKept.paths_eq]
        exact hRefuses.not_areReadable hHolds
    | accept _ _ _ _ _ _ _ _ _ _ _ hAccepted =>
        cases b with
        | false => exact absurd rfl hAccepted
        | true => exact absurd rfl hResult
  · exact .inr ⟨cs, hNew, hKnown, .inr hTakes⟩

end Session

end Whittle

------------------------------------------------------------
-- The Invariant
------------------------------------------------------------

namespace Whittle

namespace Session

open Work

variable {σ τ : Type} {u : Setup σ τ}
variable {verdict : List Bytes → Bool}

/-
  What holds between the operations of a run that does not
  fail, when the check decides by what the files hold.
    * `judged` : contents that are known are those that have
      been accepted last, or were more than them, or have been
      ruled out.
-/
structure IsJudged
    (u : Setup σ τ)
    (verdict : List Bytes → Bool)
    (s : Session σ τ) : Prop where
  ready : s.IsReady u
  distinct : FilePath.AreDistinct s.paths
  decides : u.check.Decides s.paths verdict
  judged : ∀ cs, Workspace.AreShort cs →
    Workspace.fingerprint cs ∈ s.known →
      cs = s.workspace.snapshots ∨
        s.bulk < total (cs.map Whittle.bulk) ∨
        s.IsRuledOut u verdict cs

/- A session is judged while it keeps what it has. -/
theorem Keeps.isJudged
    {s t : Session σ τ}
    (hKeeps : s.Keeps t)
    (hKnown : t.known = s.known)
    (hJudged : s.IsJudged u verdict) :
    t.IsJudged u verdict := by
  constructor
  · exact hKeeps.isReady hJudged.ready
  · rw [hKeeps.paths_eq]
    exact hJudged.distinct
  · rw [hKeeps.paths_eq]
    exact hJudged.decides
  · unfold IsRuledOut
    rw [hKnown, hKeeps.snapshots_eq, hKeeps.bulk_eq,
      hKeeps.paths_eq]
    exact hJudged.judged

/- One more contents are known, and they are ruled out. -/
theorem Keeps.isJudged_of_isRuledOut
    {s t : Session σ τ}
    {cs : List Bytes}
    (hKeeps : s.Keeps t)
    (hKnown : t.known = Workspace.fingerprint cs :: s.known)
    (hShort : Workspace.AreShort cs)
    (hRuledOut : s.IsRuledOut u verdict cs)
    (hJudged : s.IsJudged u verdict) :
    t.IsJudged u verdict := by
  constructor
  · exact hKeeps.isReady hJudged.ready
  · rw [hKeeps.paths_eq]
    exact hJudged.distinct
  · rw [hKeeps.paths_eq]
    exact hJudged.decides
  · intro cs' hShort' hMem
    unfold IsRuledOut
    rw [hKeeps.snapshots_eq, hKeeps.bulk_eq, hKeeps.paths_eq]
    rw [hKnown] at hMem
    rcases List.mem_cons.mp hMem with hSame | hOld
    · obtain rfl := Workspace.eq_of_fingerprint hShort' hShort hSame
      exact .inr (.inr hRuledOut)
    · exact hJudged.judged cs' hShort' hOld

/-
  One more contents are known, and they are accepted.  What has
  been accepted before is more than they are.
-/
theorem Takes.isJudged
    {s t : Session σ τ}
    {cs : List Bytes}
    (hTakes : s.Takes u (.asked cs (some true)) cs t)
    (hKnown : t.known = Workspace.fingerprint cs :: s.known)
    (hShort : Workspace.AreShort cs)
    (hLess : t.bulk < s.bulk)
    (hJudged : s.IsJudged u verdict) :
    t.IsJudged u verdict := by
  constructor
  · exact hTakes.isReady hJudged.ready.charwise hShort hKnown
  · rw [hTakes.paths]
    exact hJudged.distinct
  · rw [hTakes.paths]
    exact hJudged.decides
  · intro cs' hShort' hMem
    unfold IsRuledOut
    rw [hTakes.snapshots, hTakes.paths]
    rw [hKnown] at hMem
    rcases List.mem_cons.mp hMem with hSame | hOld
    · exact .inl (Workspace.eq_of_fingerprint hShort' hShort hSame)
    · rcases hJudged.judged cs' hShort' hOld with
        rfl | hMore | hRuledOut
      · exact .inr (.inl hLess)
      · exact .inr (.inl (Nat.lt_trans hLess hMore))
      · exact .inr (.inr hRuledOut)

/- A trial of cuts that gives a result leaves it judged. -/
theorem Attempts.isJudged
    {P : Scratch → Bytes → Prop}
    {s t : Session σ τ}
    {b : Bool}
    (hAttempts : Attempts u P s (some b) t)
    (hJudged : s.IsJudged u verdict)
    (hCut : ∀ f bs, P f bs → Scratch.IsCut u.rules f bs) :
    t.IsJudged u verdict := by
  cases hAttempts with
  | trial h cs _ _ hHolds hAll hTries =>
      have hHost := (s.keeps_withHost h).isJudged rfl hJudged
      have hReady := hHost.ready
      rcases hTries.learns hReady.consistent hHost.decides with
        ⟨hKeeps, hKnown⟩ | ⟨cs', hNew, hKnown, hTrial⟩
      · exact hKeeps.isJudged hKnown hHost
      · obtain rfl : cs = cs' :=
          Disk.Holds.unique hHolds hNew.holds
        rcases hTrial with ⟨hKeeps, hRuledOut⟩ | hTakes
        · exact hKeeps.isJudged_of_isRuledOut hKnown hNew.short
            hRuledOut hHost
        · have hLess :=
            hTakes.bulk_lt hReady hNew.unknown (hAll.imp hCut)
          exact hTakes.isJudged hKnown hNew.short hLess hHost

/- A session is judged when files have been opened. -/
theorem Starts.isJudged
    {fs : List FilePair}
    {s : Session σ τ}
    {w : Workspace}
    {cs : List Bytes}
    (hStarts : Starts u fs s w cs)
    (hDistinct : FilePath.AreDistinct (targets fs))
    (hCharwise : u.rules.charset.IsCharwise)
    (hApart : ∀ p ∈ targets fs, u.log.IsApart p)
    (hDecides : u.check.Decides (targets fs) verdict) :
    (s.afterOpening w cs).IsJudged u verdict := by
  have hPaths : (s.afterOpening w cs).paths = targets fs :=
    hStarts.commits.paths_eq.trans hStarts.paths
  have hKnown :
      (s.afterOpening w cs).known = [Workspace.fingerprint cs] :=
    congrArg (List.cons _) hStarts.known
  refine ⟨hStarts.isReady hCharwise hApart, ?_, ?_, ?_⟩
  · rw [hPaths]
    exact hDistinct
  · rw [hPaths]
    exact hDecides
  · intro cs' hShort hMem
    rw [hKnown] at hMem
    have hSame := List.mem_singleton.mp hMem
    rw [hStarts.snapshots_eq]
    exact .inl
      (Workspace.eq_of_fingerprint hShort hStarts.short hSame)

theorem carries_isJudged :
    CarriesPasses u False (Preserves (IsJudged u verdict))
      Any where
  host _ := by
    intro s
    apply ends_onFiles
    apply ends_onHost
    exact ends_trivial.mono
      (fun _ h _ => (s.keeps_withHost h).isJudged rfl)
      (fun _ _ _ => trivial)
  remind s memory := (carries_keeps.remind s memory).isJudged rfl
  remember s memory :=
    (carries_keeps.remember s memory).isJudged rfl
  cleanup isStrict := by
    refine goes_of_guard fun s hJudged => ?_
    refine (attempts_tryCleanup hJudged.ready.consistent
      isStrict).mono ?_ (fun _ _ _ => trivial)
    rintro _ t ⟨b, _, hAttempts⟩
    exact hAttempts.isJudged hJudged (fun _ _ h => h)
  remove nodes := by
    refine goes_of_guard fun s hJudged => ?_
    by_cases hNodes : nodes = []
    · subst hNodes
      exact ends_pure hJudged
    · refine (attempts_tryRemove hJudged.ready.consistent
        hNodes).mono ?_ (fun _ _ _ => trivial)
      rintro _ t ⟨b, _, hAttempts⟩
      exact hAttempts.isJudged hJudged
        (fun _ _ hOne => hOne.1)
  force hForce := hForce.elim

end Session

end Whittle

------------------------------------------------------------
-- The Last Pass
------------------------------------------------------------

namespace Whittle

namespace Session

open Work

section Any

variable {σ τ : Type} {u : Setup σ τ} {s : Session σ τ}

/- What comes after a pass keeps what has been accepted. -/
theorem exists_of_turn
    {size nodes number : Nat}
    {outcome : Outcome}
    {t : Session σ τ}
    (hTurn : turn u size nodes number s = (.ok outcome, t)) :
    ∃ v, passOrCleanup u number s = (.ok outcome, v) ∧
      v.Keeps t := by
  have hEnds :
      Ends (turn u size nodes number) s
        (fun outcome t => ∃ v,
          passOrCleanup u number s = (.ok outcome, v) ∧
            v.Keeps t)
        (fun _ _ => True) := by
    unfold turn
    apply ends_bind
    rcases hPass : passOrCleanup u number s with ⟨e | outcome, v⟩
    · unfold Ends
      rw [hPass]
      trivial
    · apply ends_of_eq_ok hPass
      apply ends_bind
      apply ends_get
      apply ends_bind
      refine (carries_keeps.goes_logEvent _ _ v).mono ?_
        (fun _ _ _ => trivial)
      intro _ t₁ hLogged
      apply ends_bind
      refine (carries_keeps.goes_printProgress _ _ _ t₁).mono ?_
        (fun _ _ _ => trivial)
      intro _ t₂ hPrinted
      exact ends_pure ⟨v, rfl, trans_of Keeps hLogged hPrinted⟩
  exact hEnds.of_ok hTurn

/- What is left of all files is a cut of each of them. -/
theorem isCut_of_cutOut
    {nodes : List NodeId}
    {cs : List Bytes}
    (hCutOut : s.cutOut u nodes = .ok cs) :
    List.Forall₂ (Scratch.IsCut u.rules)
      s.workspace.scratches cs :=
  (mapM_eq_ok_iff.mp hCutOut).imp
    fun _ _ hOne => Scratch.isCut_of_cutOut hOne

variable {verdict : List Bytes → Bool}

/-
  Nothing is gained by cutting some nodes: all that they leave
  of the accepted contents is ruled out, or it is the same.
-/
def IsDoneWith
    (u : Setup σ τ)
    (verdict : List Bytes → Bool)
    (s : Session σ τ)
    (nodes : List NodeId) : Prop :=
  ∃ cs, s.cutOut u nodes = .ok cs ∧
    (cs = s.workspace.snapshots ∨ s.IsRuledOut u verdict cs)

/- Nothing is gained by what has been tried. -/
theorem HasTried.isDoneWith
    {nodes : List NodeId}
    (hTried : s.HasTried u nodes)
    (hDistinct : FilePath.AreDistinct s.paths)
    (hJudged : s.IsJudged u verdict) :
    s.IsDoneWith u verdict nodes := by
  obtain ⟨cs, hCutOut, hShort, hKnown⟩ := hTried hDistinct
  have hLess : total (cs.map Whittle.bulk) ≤ s.bulk :=
    SourceRules.bulk_le_of_cuts hJudged.ready.charwise
      (cuts_of_isCut (isCut_of_cutOut hCutOut))
  refine ⟨cs, hCutOut, ?_⟩
  rcases hJudged.judged cs hShort hKnown with
    hSame | hMore | hRuledOut
  · exact .inl hSame
  · exact absurd hMore (Nat.not_lt_of_le hLess)
  · exact .inr hRuledOut

theorem IsDoneWith.keeps
    {t : Session σ τ}
    {nodes : List NodeId}
    (hDone : s.IsDoneWith u verdict nodes)
    (hKeeps : s.Keeps t) :
    t.IsDoneWith u verdict nodes := by
  unfold IsDoneWith cutOut IsRuledOut
  rw [hKeeps.scratches, hKeeps.snapshots_eq, hKeeps.paths_eq]
  exact hDone

end Any

section Greedy

variable {σ : Type} {u : Setup σ Greedy.Memory}
variable {verdict : List Bytes → Bool}

/- The greedy strategy never forces a cut. -/
theorem neverForces_of_greedy
    (hGreedy : u.strategy = greedy) :
    u.strategy.NeverForces := by
  rw [hGreedy]
  exact greedy_onlyTries.neverForces

/-
  Passes of the greedy strategy end after a failed pass.  The
  state in which it begins is the one that is left when there
  may be one pass less.
-/
theorem PassesEnd.exists_lastPass
    {size nodes before n : Nat}
    {s t : Session σ Greedy.Memory}
    {ending : Nat × Bool}
    (hGreedy : u.strategy = greedy)
    (hEnd : PassesEnd u size nodes before s n (.ok ending) t)
    (hJudged : s.IsJudged u verdict) :
    ∃ k v w, ending.1 = before + k + 1 ∧
      passes u size nodes k before s = (.error .unfinished, v) ∧
      v.IsJudged u verdict ∧
      singlePass u v = (.ok .noProgress, w) ∧ w.Keeps t := by
  have hTries := neverForces_of_greedy hGreedy
  generalize hResult : Except.ok ending = result at hEnd
  induction hEnd with
  | fails => cases hResult
  | @stops before s outcome t hTurn hLast =>
      obtain ⟨w, hPass, hKeeps⟩ := exists_of_turn hTurn
      unfold passOrCleanup at hPass
      split at hPass
      · rename_i hCleanup
        have hOutcome : outcome ≠ .forcedStop :=
          (outcome_tryCleanup true).of_ok hPass
        exact absurd ⟨hOutcome, .inl hCleanup⟩ hLast
      · obtain ⟨_, ⟨rfl, _⟩ | ⟨rfl, _⟩⟩ :=
          (ends_readyPass hGreedy hJudged.ready).of_ok hPass
        · cases hResult
          exact ⟨0, s, w, rfl, rfl, hJudged, hPass, hKeeps⟩
        · exact absurd ⟨Outcome.noConfusion, .inr rfl⟩ hLast
  | goesOn hTurn hMore _ ih =>
      have hNext : Preserves (IsJudged u verdict) _ _ :=
        (carries_isJudged.goes_turn (.inr hTries) _ _ _ _).of_ok
          hTurn
      obtain ⟨k, v, w, hNumber, hPasses, hLast⟩ :=
        ih (hNext hJudged) hResult
      refine ⟨k + 1, v, w, by omega, ?_, hLast⟩
      rw [passes_eq_of_ok hTurn, if_pos hMore]
      exact hPasses

/-
  Nothing is gained by any cut that is offered in the last
  complete scan of a pass with some memory.  The scan makes an
  offer at every node of every tree that has been accepted.
-/
def IsDoneAfter
    (u : Setup σ Greedy.Memory)
    (verdict : List Bytes → Bool)
    (m : Greedy.Memory)
    (s : Session σ Greedy.Memory) : Prop :=
  let all :=
    Greedy.lastOffers m (.ofParsed s.roots) (s.roots.map (·.tree))
  all.map Prod.fst = Greedy.candidates (s.roots.map (·.tree)) ∧
    ∀ offer ∈ all, ∀ nodes ∈ offer.2, nodes ≠ [] →
      s.IsDoneWith u verdict nodes

/-
  Nothing is gained by any cut that was offered in the last
  complete scan of some passes.  The last of them began in the
  state in which one pass less gives up, made no progress, and
  kept what had been accepted.
-/
def IsDone
    (u : Setup σ Greedy.Memory)
    (verdict : List Bytes → Bool)
    (begun : Session σ Greedy.Memory)
    (passCount : Nat)
    (s : Session σ Greedy.Memory) : Prop :=
  ∃ v,
    passLoop u (passCount - 1) begun = (.error .unfinished, v) ∧
      (singlePass u v).1 = .ok .noProgress ∧ v.Keeps s ∧
      s.IsDoneAfter u verdict v.strategy

/-
  When the passes of a greedy run have ended, nothing is gained
  by any cut that was offered in the last complete scan.  The
  charset has to write character by character, the files have
  to be distinct, the log must not be written to them, and the
  answers of the check must depend on nothing but
  what the files hold.
-/
theorem greedy_isDone
    {fs : List FilePair}
    {h : Host}
    {start begun s : Session σ Greedy.Memory}
    {bound : Nat}
    {ending : Nat × Bool}
    (hGreedy : u.strategy = greedy)
    (hDistinct : FilePath.AreDistinct (targets fs))
    (hCharwise : u.rules.charset.IsCharwise)
    (hApart : ∀ p ∈ targets fs, u.log.IsApart p)
    (hDecides : u.check.Decides (targets fs) verdict)
    (hOpen : openFiles u fs (initial u h) = (.ok (), start))
    (hStart : startCheck u start = (.ok (), begun))
    (hLoop : passLoop u bound begun = (.ok ending, s)) :
    s.lastAccepted = some s.workspace.snapshots ∧
      IsDone u verdict begun ending.1 s := by
  have hTries := neverForces_of_greedy hGreedy
  obtain ⟨t₀, w₀, cs₀, hStarts, rfl⟩ := starts_of_openFiles hOpen
  have hStarted : Preserves (IsJudged u verdict) _ begun :=
    (carries_isJudged.goes_startCheck _).of_ok hStart
  have hBegun :=
    hStarted
      (hStarts.isJudged hDistinct hCharwise hApart hDecides)
  rcases carries_isJudged.reaches_passes begun with
    ⟨e, t, hFails⟩ | ⟨t, hJudged, hPasses⟩
  · cases (hFails bound).symm.trans hLoop
  · obtain ⟨n, hEnd⟩ :=
      passesEnd_of_ok ((hPasses bound).symm.trans hLoop)
    obtain ⟨k, v, w, hNumber, hLess, hBefore, hPass, hKeeps⟩ :=
      hEnd.exists_lastPass hGreedy (hJudged hBegun)
    have hPassed : Preserves (IsJudged u verdict) v w :=
      (carries_isJudged.goes_singlePass (.inr hTries) v).of_ok hPass
    have hAfter := hPassed hBefore
    obtain ⟨_, ⟨_, hSame, hTried⟩ | ⟨hNone, _⟩⟩ :=
      (ends_readyPass hGreedy hBefore.ready).of_ok hPass
    · have hKept := trans_of Keeps hSame hKeeps
      refine ⟨?_, v, ?_, ?_, hKept, ?_, ?_⟩
      · exact (hKeeps.isConsistent hAfter.ready.consistent).accepted
      · have hOne : ending.1 - 1 = k := by omega
        rw [hOne, hPasses]
        exact hLess
      · rw [hPass]
      · exact Greedy.lastOffers_nodes _ _ _
      · rw [hKept.roots]
        intro offer hOffer nodes hNodes hSome
        have hDone :=
          (hTried offer hOffer nodes hNodes hSome).isDoneWith
            hAfter.distinct hAfter
        exact hDone.keeps hKeeps
    · cases hNone

end Greedy

end Session

end Whittle

------------------------------------------------------------
-- Small Runs
------------------------------------------------------------

namespace Whittle

namespace Session

theorem decides_greedySetup
    (verdict : List Bytes → Bool)
    (ps : List FilePath) :
    (greedySetup verdict).check.Decides ps verdict := by
  intro memory view cs b hFiles hHolds hAnswer
  have hRead : view.files.mapM view.disk.read = .ok cs := by
    rw [hFiles]
    exact mapM_eq_ok_iff.mpr hHolds
  unfold greedySetup at hAnswer
  dsimp only at hAnswer
  rw [hRead] at hAnswer
  cases hAnswer
  rfl

/- A greedy run that ends with the one character it needs. -/
theorem greedy_isDone_small :
    ∃ start begun s ending,
      greedyOpened (·.any (·.contains 66)) "b" [65, 65, 66] =
          (.ok (), start) ∧
        startCheck (greedySetup (·.any (·.contains 66))) start =
          (.ok (), begun) ∧
        passLoop (greedySetup (·.any (·.contains 66))) 5 begun =
          (.ok ending, s) ∧
        IsDone (greedySetup (·.any (·.contains 66)))
          (·.any (·.contains 66)) begun ending.1 s := by
  have hOpened :
      (greedyOpened (·.any (·.contains 66)) "b" [65, 65, 66]
        ).1.toOption.isSome := by
    decide +kernel
  have hStarted :
      (startCheck (greedySetup (·.any (·.contains 66)))
        (greedyOpened (·.any (·.contains 66)) "b" [65, 65, 66]).2
        ).1.toOption.isSome := by
    decide +kernel
  have hPassed :
      (passLoop (greedySetup (·.any (·.contains 66))) 5
        (startCheck (greedySetup (·.any (·.contains 66)))
          (greedyOpened (·.any (·.contains 66)) "b"
            [65, 65, 66]).2).2
        ).1.toOption.isSome := by
    decide +kernel
  obtain ⟨_, hOpen⟩ := eq_of_isSome hOpened
  obtain ⟨_, hStart⟩ := eq_of_isSome hStarted
  obtain ⟨ending, hLoop⟩ := eq_of_isSome hPassed
  obtain ⟨_, hDone⟩ :=
    greedy_isDone rfl (by decide +kernel)
      (Charset.isCharwise_known Codec.isCharwise_utf8)
      (by decide +kernel)
      (decides_greedySetup _ _) hOpen hStart hLoop
  exact ⟨_, _, _, ending, hOpen, hStart, hLoop, hDone⟩

/-
  Some nodes are offered in every last scan over some trees,
  wherever the scan before it has started.
-/
def areOffered
    (ps : List Parsed)
    (nodes : NodeSet) : Bool :=
  let ts := ps.map (·.tree)
  (List.range ((Greedy.candidates ts).length + 2)).all fun k =>
    (Greedy.lastOffers ⟨k, 0, 0⟩ (.ofParsed ps) ts).any fun offer =>
      offer.2.contains nodes

/- Nodes that are always offered are offered in some place. -/
theorem exists_offer
    {ps : List Parsed}
    {nodes : NodeSet}
    (hOffered : areOffered ps nodes)
    (m : Greedy.Memory) :
    ∃ offer ∈ Greedy.lastOffers m (.ofParsed ps) (ps.map (·.tree)),
      nodes ∈ offer.2 := by
  rw [Greedy.lastOffers_min]
  have hSome := List.all_eq_true.mp hOffered
    (min m.position
      ((Greedy.candidates (ps.map (·.tree))).length + 1))
    (List.mem_range.mpr (by omega))
  obtain ⟨offer, hOffer, hNodes⟩ := List.any_eq_true.mp hSome
  exact ⟨offer, hOffer, List.contains_iff_mem.mp hNodes⟩

/-
  Nodes are offered although the check says yes to what they
  leave of the accepted contents, which is less and can be
  read.
-/
def isMissed
    (u : Setup Unit Greedy.Memory)
    (verdict : List Bytes → Bool)
    (s : Session Unit Greedy.Memory)
    (nodes : NodeSet)
    (cs : List Bytes) : Bool :=
  areOffered s.roots nodes && !nodes.isEmpty &&
    (s.cutOut u nodes).toOption == some cs &&
    cs != s.workspace.snapshots && verdict cs &&
    s.paths.length == cs.length &&
    (s.paths.zip cs).all fun (p, bs) =>
      (u.rules.readTree p bs).toOption.isSome

theorem not_isDoneAfter_of_isMissed
    {u : Setup Unit Greedy.Memory}
    {verdict : List Bytes → Bool}
    {s : Session Unit Greedy.Memory}
    {nodes : NodeSet}
    {cs : List Bytes}
    (hMissed : isMissed u verdict s nodes cs)
    (m : Greedy.Memory) :
    ¬ s.IsDoneAfter u verdict m := by
  unfold isMissed at hMissed
  simp only [Bool.and_eq_true, beq_iff_eq, bne_iff_ne,
    Bool.not_eq_true', List.isEmpty_eq_false_iff,
    List.all_eq_true] at hMissed
  obtain ⟨⟨⟨⟨⟨⟨hOffered, hSome⟩, hCutOut⟩, hOther⟩, hYes⟩,
    hLength⟩, hTrees⟩ := hMissed
  have hReadable : u.rules.AreReadable s.paths cs := by
    refine List.forall₂_iff_zip.mpr ⟨hLength, ?_⟩
    intro p bs hMem
    obtain ⟨parsed, hTree⟩ :=
      Option.isSome_iff_exists.mp (hTrees (p, bs) hMem)
    exact ⟨parsed, eq_ok_of_toOption hTree⟩
  rintro ⟨_, hAll⟩
  obtain ⟨offer, hOffer, hNodes⟩ := exists_offer hOffered m
  obtain ⟨cs', hCutOut', hEnd⟩ := hAll offer hOffer nodes hNodes hSome
  rw [hCutOut'] at hCutOut
  obtain rfl := Option.some.inj hCutOut
  rcases hEnd with hSame | hUnreadable | hNo
  · exact hOther hSame
  · exact hUnreadable hReadable
  · exact Bool.noConfusion (hYes.symm.trans hNo)

/-
  If the output is the file of the events of the run, the
  answer to a question has been logged to it before it is
  accepted.  So a cut that can be read and that the check says
  yes to may not be accepted, and is not tried again.  This is
  so whatever the memory was with which the last pass began.
-/
theorem exists_notDone :
    ∃ start begun s ending,
      greedyOpened (fun _ => true) "log/events.ndjson" [65, 66] =
          (.ok (), start) ∧
        startCheck (greedySetup fun _ => true) start =
          (.ok (), begun) ∧
        passLoop (greedySetup fun _ => true) 5 begun =
          (.ok ending, s) ∧
        FilePath.AreDistinct
          (targets [⟨"a", "log/events.ndjson"⟩]) ∧
        (greedySetup fun _ => true).check.Decides
          (targets [⟨"a", "log/events.ndjson"⟩]) (fun _ => true) ∧
        ∀ m, ¬ s.IsDoneAfter (greedySetup fun _ => true)
          (fun _ => true) m := by
  have hOpened :
      (greedyOpened (fun _ => true) "log/events.ndjson" [65, 66]
        ).1.toOption.isSome := by
    decide +kernel
  have hStarted :
      (startCheck (greedySetup fun _ => true)
        (greedyOpened (fun _ => true) "log/events.ndjson"
          [65, 66]).2).1.toOption.isSome := by
    decide +kernel
  have hPassed :
      (passLoop (greedySetup fun _ => true) 5
        (startCheck (greedySetup fun _ => true)
          (greedyOpened (fun _ => true) "log/events.ndjson"
            [65, 66]).2).2).1.toOption.isSome := by
    decide +kernel
  have hMissed :
      isMissed (greedySetup fun _ => true) (fun _ => true)
        (passLoop (greedySetup fun _ => true) 5
          (startCheck (greedySetup fun _ => true)
            (greedyOpened (fun _ => true) "log/events.ndjson"
              [65, 66]).2).2).2
        [⟨0, 1⟩] [[66]] := by
    decide +kernel
  obtain ⟨_, hOpen⟩ := eq_of_isSome hOpened
  obtain ⟨_, hStart⟩ := eq_of_isSome hStarted
  obtain ⟨ending, hLoop⟩ := eq_of_isSome hPassed
  exact ⟨_, _, _, ending, hOpen, hStart, hLoop,
    by decide +kernel, decides_greedySetup _ _,
    not_isDoneAfter_of_isMissed hMissed⟩

end Session

end Whittle
