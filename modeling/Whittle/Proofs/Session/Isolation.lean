import Whittle.Proofs.Session.Current

/-
  A trial depends on what has been accepted, and on nothing
  that earlier trials have left.

  Key definitions include:
    * `Request`
    * `Session.outcome`

  Main statements:
    * `Session.attempt_outcome`
    * `Session.trial_dependsOnAccepted`

  Every file is restored before it is changed, so it does not
  matter what is in it by then.  The files of two sessions in
  which the same has been accepted hold the same contents
  when the same is tried, or the trial fails in the same way.
-/

------------------------------------------------------------
-- Reached Sessions
------------------------------------------------------------

namespace Whittle

namespace Session

open Work

variable {σ τ : Type} {u : Setup σ τ} {s t : Session σ τ}
variable {R : Session σ τ → Session σ τ → Prop}

/-
  Whatever holds along the operations of a run, and where
  others write, holds along all that happens.
-/
theorem Acts.of_carries
    [Std.Refl R]
    [Trans R R R]
    (hCarries : Carries u True R R)
    (hWrite : ∀ h, s.workspace.host.Grows h → R s (s.withHost h))
    (hActs : Acts u s t) :
    R s t := by
  have hGoes :
      ∀ {α : Type} {work : Work (Session σ τ) α},
        Goes R R work → R s (work s).2 :=
    fun hWork => (hWork s).anyway
  cases hActs with
  | cleanup isStrict => exact hGoes (hCarries.cleanup isStrict)
  | remove nodes => exact hGoes (hCarries.remove nodes)
  | offer variants => exact hGoes (hCarries.goes_tryVariants variants)
  | force nodes => exact hGoes (hCarries.force trivial nodes)
  | strip i => exact hGoes (hCarries.strip i)
  | restore => exact hGoes hCarries.restore
  | disturb h check strategy hGrows _ =>
      have hReminded := Trans.trans (hWrite h hGrows)
        (hCarries.remind (s.withHost h) check)
      exact Trans.trans hReminded
        (hCarries.remember { s.withHost h with check := check }
          strategy)

/- All that is reached is reached by operations. -/
theorem Reaches.operates
    (hReaches : Reaches u s t) :
    Operates u True s t := by
  induction hReaches with
  | refl => exact .refl
  | tail _ hActs ih =>
      exact trans_of (Operates u True) ih
        (hActs.of_carries carries_operates
          fun h _ => (Operation.write h).operates)

/- It is reached by steps too, if no file is one of the log. -/
theorem Reaches.leads
    (hReaches : Reaches u s t) :
    Leads u True s t := by
  induction hReaches with
  | refl => exact Std.Refl.refl s
  | tail _ hActs ih =>
      exact trans_of (Leads u True) ih
        (hActs.of_carries carries_leads
          fun h hGrows _ => (Step.write _ h hGrows).follows)

end Session

end Whittle

------------------------------------------------------------
-- Requests
------------------------------------------------------------

namespace Whittle

/- What a strategy can ask to be tried. -/
inductive Request where
| cleanup (isStrict : Bool)
| remove (nodes : List NodeId)

namespace Request

variable {σ τ : Type}

/- There is something to try. -/
def IsTried : Request → Prop
  | cleanup _ => True
  | remove nodes => nodes ≠ []

/- Try it. -/
def attempt
    (u : Setup σ τ) : Request → Work (Session σ τ) Outcome
  | cleanup isStrict => Session.tryCleanup u isStrict
  | remove nodes => Session.tryRemove u nodes

/-
  What it gives a file, or how that fails.  Nothing but what
  has been accepted of the file is looked at.
-/
def result
    (r : SourceRules) : Request → Scratch → Except Failure Bytes
  | cleanup _ => Scratch.cleaned r
  | remove nodes => Session.cutResult r nodes

/- Write the files. -/
def write
    (u : Setup σ τ)
    (s : Session σ τ) : Request → Work (Session σ τ) Unit
  | cleanup _ =>
      Session.onFiles
        (Workspace.forEach (Scratch.writeCleaned u.rules))
  | remove nodes =>
      Session.onHost
        (Session.cutEach u.rules s.workspace.scratches
          (.ofList nodes))

/- Try what the files hold after that. -/
def proceed
    (u : Setup σ τ)
    (s : Session σ τ) : Request → Work (Session σ τ) Outcome
  | cleanup isStrict => do
      let isCommitted ← Session.tryCommit u
      pure (Session.progressIf (isCommitted && isStrict))
  | remove nodes => do
      Session.reportUnknown u (s.unknownCount nodes)
      let isCommitted ← Session.tryCommit u
      pure (Session.progressIf isCommitted)

end Request

namespace Session

variable {σ τ : Type}

/- What a request gives all files, or how that fails. -/
def outcome
    (u : Setup σ τ)
    (s : Session σ τ)
    (request : Request) : Except Failure (List Bytes) :=
  s.workspace.scratches.mapM (request.result u.rules)

end Session

end Whittle

------------------------------------------------------------
-- Trials
------------------------------------------------------------

namespace Whittle

namespace Session

open Host Work

variable {σ τ : Type} {u : Setup σ τ} {s : Session σ τ}

/- A request is tried by writing the files first. -/
theorem attempt_eq
    {request : Request}
    (hTried : request.IsTried) :
    request.attempt u s =
      (do
        request.write u s
        request.proceed u s) s := by
  cases request with
  | cleanup isStrict => rfl
  | remove nodes =>
      have hNodes : ¬ nodes.isEmpty = true := by
        simpa [Request.IsTried] using hTried
      dsimp only [Request.attempt, Request.write, Request.proceed]
      unfold tryRemove
      rw [if_neg hNodes, bind_eq_of_eq (writeTrimmed_eq u nodes s),
        bind_assoc]

/-
  The files are given what the request gives them, or this
  fails as it does for the accepted contents.
-/
theorem ends_write
    (request : Request)
    (hCommitted : ∀ f ∈ s.workspace.scratches, ∃ bs p,
      f.IsCommitted u.rules bs p)
    (hDisjoint : s.workspace.scratches.Pairwise fun f g => ∀ n,
      g.nodes.contains n = true → f.nodes.contains n = false)
    (hDistinct : FilePath.AreDistinct s.paths)
    (hFiles : ∀ p ∈ s.paths, s.disk.IsFile p) :
    Ends (request.write u s) s
      (fun _ t => ∃ h cs, t = s.withHost h ∧ t.Holds cs ∧
        s.outcome u request = .ok cs)
      (fun e t => (∃ h, t = s.withHost h) ∧
        s.outcome u request = .error e) := by
  have hShared : IsShared s.workspace.scratches
      (fun f bs => request.result u.rules f = .ok bs) :=
    isShared_of_areDistinct hDistinct
  have hThere : ∀ f ∈ s.workspace.scratches,
      s.disk.IsFile f.path :=
    fun f hf => hFiles f.path (List.mem_map_of_mem hf)
  have hWritten :
      ∀ h, RewritesAll s.workspace.scratches
          (fun f bs => request.result u.rules f = .ok bs)
          s.workspace.host h →
        ∃ h' cs, s.withHost h = s.withHost h' ∧
          (s.withHost h).Holds cs ∧
          s.outcome u request = .ok cs := by
    intro h hAll
    obtain ⟨cs, hHolds, hRight⟩ := hAll.exists_holds
    exact ⟨h, cs, rfl, hHolds, mapM_eq_ok_iff.mpr hRight⟩
  cases request with
  | cleanup isStrict =>
      refine (ends_forEach hShared ?_
        (fun f _ bs hResult => hResult)).mono ?_ ?_
      · intro f hf h
        obtain ⟨bs, p, hOne⟩ := hCommitted f hf
        exact Scratch.gives_writeCleaned hOne.snapshot
      · rintro _ _ ⟨h, rfl, hAll⟩
        exact hWritten h hAll
      · rintro e _ ⟨h, rfl, hFails⟩
        exact ⟨⟨h, rfl⟩, hFails hThere⟩
  | remove nodes =>
      dsimp only [Request.write]
      apply ends_onFiles
      apply ends_onHost
      refine (ends_cutEach nodes hCommitted hDisjoint hShared
        (fun f _ bs hCut => cutResult_eq_ok_iff.mpr hCut)).mono
        ?_ ?_
      · exact fun _ h hAll => hWritten h hAll
      · exact fun e h hFails => ⟨⟨h, rfl⟩, hFails hThere⟩

/- All that happens in a trial happens to what the files hold. -/
theorem Tries.exists_newer
    {t : Session σ τ}
    {result : Option Bool}
    {cs : List Bytes}
    (hTries : Tries u s result t)
    (hHolds : s.Holds cs) :
    ∃ newer, t.trail = newer ++ s.trail ∧
      ∀ m ∈ newer, m.contents = cs := by
  have hAsked :
      ∀ {cs' v}, s.IsNew cs' → Logs u (s.afterAsking u cs') v →
        ∃ answer, v.trail = [.asked cs answer] ++ s.trail := by
    rintro cs' _ hNew ⟨h, _, rfl⟩
    obtain rfl : cs = cs' := hHolds.unique hNew.holds
    exact ⟨_, rfl⟩
  cases hTries with
  | stop => exact ⟨[], rfl, by simp⟩
  | skip cs' hHolds' =>
      obtain rfl : cs = cs' := hHolds.unique hHolds'
      exact ⟨[.skipped cs], rfl, by simp [Moment.contents]⟩
  | fail cs' _ hNew hLogs =>
      obtain ⟨answer, hTrail⟩ := hAsked hNew hLogs
      exact ⟨_, hTrail, by simp [Moment.contents]⟩
  | refuse cs' _ hNew _ hLogs =>
      obtain ⟨answer, hTrail⟩ := hAsked hNew hLogs
      exact ⟨_, hTrail, by simp [Moment.contents]⟩
  | unreadable cs' t w _ hNew _ hLogs =>
      obtain ⟨answer, hTrail⟩ := hAsked hNew hLogs
      exact ⟨_, hTrail, by simp [Moment.contents]⟩
  | accept cs' t _ w _ hNew _ hLogs _ _ hLogs' =>
      obtain ⟨answer, hTrail⟩ := hAsked hNew hLogs
      obtain ⟨h, _, rfl⟩ := hLogs'
      obtain rfl : cs = cs' := hHolds.unique hNew.holds
      refine ⟨[.accepted cs, .asked cs answer], ?_,
        by simp [Moment.contents]⟩
      exact congrArg (List.cons (Moment.accepted cs)) hTrail

/- What is tried is what the files hold after they are written. -/
theorem ends_proceed
    {v : Session σ τ}
    {cs : List Bytes}
    (request : Request)
    (hApart : s.IsApart u)
    (hHolds : s.Holds cs) :
    Ends (request.proceed u v) s
      (fun _ t => ∃ newer, t.trail = newer ++ s.trail ∧
        ∀ m ∈ newer, m.contents = cs)
      (fun _ t => ∃ newer, t.trail = newer ++ s.trail ∧
        ∀ m ∈ newer, m.contents = cs) := by
  have hTrial :
      ∀ {t : Session σ τ} (f : Bool → Outcome), Logs u s t →
        Ends
          (do
            let isCommitted ← tryCommit u
            pure (f isCommitted))
          t
          (fun _ v => ∃ newer, v.trail = newer ++ s.trail ∧
            ∀ m ∈ newer, m.contents = cs)
          (fun _ v => ∃ newer, v.trail = newer ++ s.trail ∧
            ∀ m ∈ newer, m.contents = cs) := by
    rintro _ f ⟨h, hAdds, rfl⟩
    have hHolds' := hHolds.adds hApart hAdds
    have hApart' : (s.withHost h).IsApart u := hApart
    apply ends_bind
    refine (tries_tryCommit hApart').mono ?_ ?_
    · exact fun _ _ hTries => ends_pure (hTries.exists_newer hHolds')
    · exact fun _ _ hTries => hTries.exists_newer hHolds'
  cases request with
  | cleanup isStrict => exact hTrial _ (Std.Refl.refl s)
  | remove nodes =>
      apply ends_bind
      refine (logs_reportUnknown _ s).mono ?_ ?_
      · exact fun _ _ hLogs => hTrial _ hLogs
      · rintro _ _ ⟨h, _, rfl⟩
        exact ⟨[], rfl, by simp⟩

/- Nodes that are not those of a file do not matter for it. -/
theorem cutOut_filter
    {f : Scratch}
    {bs : Bytes}
    {p : Parsed}
    (hCommitted : f.IsCommitted u.rules bs p)
    (nodes : List NodeId) :
    f.cutOut u.rules nodes =
      f.cutOut u.rules (nodes.filter f.nodes.contains) := by
  have hSame :
      ∀ n, ((nodes.filter f.nodes.contains).contains n &&
          p.tree.nodes.contains n) =
        (nodes.contains n && p.tree.nodes.contains n) := by
    intro n
    rw [hCommitted.nodes, Bool.eq_iff_iff]
    simp only [Bool.and_eq_true, List.contains_iff_mem,
      List.mem_filter, NodeTable.contains_ofList]
    exact ⟨fun h => ⟨h.1.1, h.2⟩, fun h => ⟨⟨h.1, h.2⟩, h.2⟩⟩
  unfold Scratch.cutOut
  rw [hCommitted.snapshot, hCommitted.root]
  simp only [hSame]

/-
  What an attempt leads to: it fails as its outcome does, or
  it goes on with files that hold its outcome.
-/
theorem attempt_outcome
    {request : Request}
    (hCommitted : ∀ f ∈ s.workspace.scratches, ∃ bs p,
      f.IsCommitted u.rules bs p)
    (hDisjoint : s.workspace.scratches.Pairwise fun f g => ∀ n,
      g.nodes.contains n = true → f.nodes.contains n = false)
    (hDistinct : FilePath.AreDistinct s.paths)
    (hApart : s.IsApart u)
    (hFiles : ∀ p ∈ s.paths, s.disk.IsFile p)
    (hTried : request.IsTried) :
    match s.outcome u request with
    | .ok cs =>
        ∃ h newer, (s.withHost h).Holds cs ∧
          request.attempt u s =
            request.proceed u s (s.withHost h) ∧
          (request.attempt u s).2.trail = newer ++ s.trail ∧
          ∀ m ∈ newer, m.contents = cs
    | .error e =>
        ∃ h, request.attempt u s = (.error e, s.withHost h) := by
  have hEnds :=
    ends_write request hCommitted hDisjoint hDistinct hFiles
  have hAttempt := attempt_eq (u := u) (s := s) hTried
  rcases hWrite : request.write u s s with ⟨e | _, t⟩
  · obtain ⟨⟨h, rfl⟩, hError⟩ := hEnds.of_error hWrite
    rw [hError]
    rw [bind_of_error hWrite] at hAttempt
    exact ⟨h, hAttempt⟩
  · obtain ⟨h, cs, rfl, hHolds, hOk⟩ := hEnds.of_ok hWrite
    rw [hOk]
    rw [bind_of_ok hWrite] at hAttempt
    obtain ⟨newer, hTrail, hNewer⟩ :=
      (ends_proceed (v := s) request (s := s.withHost h)
        hApart hHolds).anyway
    refine ⟨h, newer, hHolds, hAttempt, ?_, hNewer⟩
    rw [hAttempt]
    exact hTrail

/-
  What a trial is about, in every state that a run can reach.
  Take any session in which the same has been accepted, with
  anything in its files.  Trying something either fails there,
  and always in the same way, or the check is asked about,
  skips or accepts one thing: what the request makes of the
  accepted contents.  If nodes are removed, these are the
  accepted contents of each file without those of the nodes
  that belong to its tree.
-/
theorem trial_dependsOnAccepted
    {fs : List FilePair}
    {h : Host}
    {start : Session σ τ}
    {request : Request}
    (hDistinct : FilePath.AreDistinct (targets fs))
    (hApart : ∀ p ∈ targets fs, u.log.IsApart p)
    (hOpen : openFiles u fs (initial u h) = (.ok (), start))
    (hReached : Reaches u start s)
    (hTried : request.IsTried) :
    (∀ v : Session σ τ,
      v.workspace.scratches = s.workspace.scratches →
      (∀ p ∈ v.paths, v.disk.IsFile p) →
      match s.outcome u request with
      | .ok cs =>
          ∃ h newer, (v.withHost h).Holds cs ∧
            request.attempt u v =
              request.proceed u s (v.withHost h) ∧
            (request.attempt u v).2.trail = newer ++ v.trail ∧
            ∀ m ∈ newer, m.contents = cs
      | .error e =>
          ∃ h, request.attempt u v = (.error e, v.withHost h)) ∧
      (∀ p ∈ s.paths, s.disk.IsFile p) ∧
      (∀ nodes cs, s.outcome u (.remove nodes) = .ok cs ↔
        s.cutOut u nodes = .ok cs) ∧
      ∀ f ∈ s.workspace.scratches, ∀ nodes,
        f.cutOut u.rules nodes =
          f.cutOut u.rules (nodes.filter f.nodes.contains) := by
  have hOpened := opened_of_openFiles hDistinct hApart hOpen
  have hKept := (hOpened.kept True).follows
    (hReached.leads (hOpened.kept True).apart)
  obtain ⟨t, w, cs₀, hStarts, hStart⟩ := starts_of_openFiles hOpen
  have hConsistent : s.IsConsistent u :=
    hReached.operates.isConsistent
      (hStart ▸ hStarts.isConsistent hApart)
  refine ⟨?_, hKept.files, ?_, ?_⟩
  · intro v hScratches hFiles
    have hPaths : v.paths = s.paths := by
      unfold paths Workspace.paths
      rw [hScratches]
    have hOutcome : v.outcome u request = s.outcome u request := by
      unfold outcome
      rw [hScratches]
    have hProceed : request.proceed u v = request.proceed u s := by
      unfold Request.proceed unknownCount hasNode
      rw [hScratches]
    have hApart' : v.IsApart u := by
      unfold IsApart
      rw [hPaths]
      exact hKept.apart
    have hAttempt := attempt_outcome
      (hScratches ▸ hConsistent.committed)
      (hScratches ▸ hConsistent.disjoint)
      (hPaths ▸ hKept.distinct) hApart' hFiles hTried
    rw [hOutcome, hProceed] at hAttempt
    exact hAttempt
  · intro nodes cs
    unfold outcome cutOut
    rw [mapM_eq_ok_iff, mapM_eq_ok_iff]
    simp only [Request.result, cutResult_eq_ok_iff]
  · intro f hf nodes
    obtain ⟨bs, p, hOne⟩ := hConsistent.committed f hf
    exact cutOut_filter hOne nodes

/- A session that has been opened for a small setup. -/
def smallStart : Session Unit Unit :=
  (opened (smallSetup true .noProgress) [⟨"a", "b"⟩]
    [65, 10, 66]).2

/- Its host after something else has been written. -/
def disturbedHost : Host :=
  { smallStart.workspace.host with
    disk :=
      (smallStart.disk.write (.ofText "b") [90]).toOption.getD
        .empty }

/-
  The one node is removed from what has been accepted, not
  from what others have written to the file.
-/
theorem trial_dependsOnAccepted_small :
    opened (smallSetup true .noProgress) [⟨"a", "b"⟩]
        [65, 10, 66] = (.ok (), smallStart) ∧
      disturbedHost.disk.read (.ofText "b") = .ok [90] ∧
      ∃ newer,
        (tryRemove (smallSetup true .noProgress) [⟨0, 0⟩]
          (smallStart.withHost disturbedHost)).2.trail =
            newer ++ smallStart.trail ∧
          newer.length = 2 ∧
          ∀ m ∈ newer, m.contents = [[65, 10]] := by
  have hOpened :
      (opened (smallSetup true .noProgress) [⟨"a", "b"⟩]
        [65, 10, 66]).1.toOption.isSome := by
    decide +kernel
  have hPaths : smallStart.paths = [.ofText "b"] := by
    decide +kernel
  have hRead : disturbedHost.disk.read (.ofText "b") = .ok [90] :=
    eq_ok_of_toOption (by decide +kernel)
  have hOutcome :
      smallStart.outcome (smallSetup true .noProgress)
        (.remove [⟨0, 0⟩]) = .ok [[65, 10]] :=
    eq_ok_of_toOption (by decide +kernel)
  have hTried : (Request.remove [⟨0, 0⟩]).IsTried := by
    simp [Request.IsTried]
  obtain ⟨_, hOpen⟩ := eq_of_isSome hOpened
  obtain ⟨hTrials, _⟩ :=
    trial_dependsOnAccepted (s := smallStart)
      (by decide +kernel) (by decide +kernel) hOpen .refl hTried
  have hTrial := hTrials (smallStart.withHost disturbedHost) rfl
  rw [hOutcome] at hTrial
  have hFiles : ∀ p ∈ (smallStart.withHost disturbedHost).paths,
      (smallStart.withHost disturbedHost).disk.IsFile p := by
    have hSame :
        (smallStart.withHost disturbedHost).paths =
          [.ofText "b"] := hPaths
    rw [hSame]
    simpa using ⟨[90], hRead⟩
  obtain ⟨_, newer, _, _, hTrail, hNewer⟩ := hTrial hFiles
  have hLength :
      (tryRemove (smallSetup true .noProgress) [⟨0, 0⟩]
        (smallStart.withHost disturbedHost)).2.trail.length =
          2 + smallStart.trail.length := by
    decide +kernel
  refine ⟨hOpen, hRead, newer, hTrail, ?_, hNewer⟩
  rw [← Nat.add_right_cancel_iff, ← List.length_append, ← hTrail]
  exact hLength

/- The check is asked about other contents than these. -/
def asksOther
    (cs : List Bytes) : Moment → Bool
  | .asked cs' _ => decide (cs' ≠ cs)
  | _ => false

/-
  If the output is the file of the events of the run, the
  warning that a node is unknown is added to what the check
  is asked about, although nothing has been cut out of it.
-/
theorem exists_askedOther :
    ∃ start : Session Unit Unit,
      opened (smallSetup false .noProgress)
          [⟨"a", "log/events.ndjson"⟩] [10] = (.ok (), start) ∧
        FilePath.AreDistinct
          (targets [⟨"a", "log/events.ndjson"⟩]) ∧
        start.cutOut (smallSetup false .noProgress) [⟨7, 0⟩] =
          .ok [[10]] ∧
        ∃ cs answer, cs ≠ [[10]] ∧
          .asked cs answer ∈
            (tryRemove (smallSetup false .noProgress) [⟨7, 0⟩]
              start).2.trail := by
  have hOpened :
      (opened (smallSetup false .noProgress)
        [⟨"a", "log/events.ndjson"⟩] [10]).1.toOption.isSome := by
    decide +kernel
  have hAsked :
      (tryRemove (smallSetup false .noProgress) [⟨7, 0⟩]
        (opened (smallSetup false .noProgress)
          [⟨"a", "log/events.ndjson"⟩] [10]).2).2.trail.any
        (asksOther [[10]]) = true := by
    decide +kernel
  have hCut :
      (opened (smallSetup false .noProgress)
        [⟨"a", "log/events.ndjson"⟩] [10]).2.cutOut
          (smallSetup false .noProgress) [⟨7, 0⟩] = .ok [[10]] := by
    apply eq_ok_of_toOption
    decide +kernel
  obtain ⟨_, hOpen⟩ := eq_of_isSome hOpened
  refine ⟨_, hOpen, by decide +kernel, hCut, ?_⟩
  obtain ⟨m, hm, hOther⟩ := List.any_eq_true.mp hAsked
  cases m with
  | asked cs answer =>
      exact ⟨cs, answer, of_decide_eq_true hOther, hm⟩
  | skipped | forced | accepted => cases hOther

end Session

end Whittle
