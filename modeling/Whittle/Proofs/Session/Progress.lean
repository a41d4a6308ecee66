import Whittle.Proofs.Session.Operation
import Whittle.Proofs.Strategy.Offers

/-
  What progress means.

  Key definitions include:
    * `Session.IsReady`
    * `Session.bulk`
    * `Session.HasTried`
    * `Session.PassEnds`

  Main statements:
    * `Session.ends_readyCleanup`
    * `Session.ends_readyRemove`
    * `Session.ends_scan`
    * `Session.ends_readyPass`

  What has been accepted is known, so it is not accepted once
  more.  A cut that is accepted is therefore not the same
  contents, and its bulk is less.  A cut that is not accepted
  is known from then on.
-/

------------------------------------------------------------
-- Ready Sessions
------------------------------------------------------------

namespace Whittle

namespace Session

open Work

variable {σ τ : Type} {u : Setup σ τ}

/- The bulk of what has been accepted. -/
def bulk
    (s : Session σ τ) : Nat :=
  total (s.workspace.snapshots.map Whittle.bulk)

/-
  What holds between any two operations of a run without
  force in a charset that writes character by character: the
  session is consistent, and what has been accepted is known.
-/
structure IsReady
    (u : Setup σ τ)
    (s : Session σ τ) : Prop where
  charwise : u.rules.charset.IsCharwise
  consistent : s.IsConsistent u
  short : Workspace.AreShort s.workspace.snapshots
  known : Workspace.fingerprint s.workspace.snapshots ∈ s.known

/- A session that keeps what it has stays ready. -/
theorem Keeps.isReady
    {s t : Session σ τ}
    (hKeeps : s.Keeps t)
    (hReady : s.IsReady u) :
    t.IsReady u := by
  refine ⟨hReady.charwise,
    hKeeps.isConsistent hReady.consistent, ?_, ?_⟩
  · rw [hKeeps.snapshots_eq]
    exact hReady.short
  · rw [hKeeps.snapshots_eq]
    exact hKeeps.known _ hReady.known

theorem Keeps.bulk_eq
    {s t : Session σ τ}
    (hKeeps : s.Keeps t) :
    t.bulk = s.bulk := by
  unfold bulk
  rw [hKeeps.snapshots_eq]

/- A session is ready when it has accepted what was tried. -/
theorem Takes.isReady
    {s t : Session σ τ}
    {m : Moment}
    {cs : List Bytes}
    (hTakes : s.Takes u m cs t)
    (hCharwise : u.rules.charset.IsCharwise)
    (hShort : Workspace.AreShort cs)
    (hKnown : t.known = Workspace.fingerprint cs :: s.known) :
    t.IsReady u := by
  refine ⟨hCharwise, hTakes.consistent, ?_, ?_⟩
  · rw [hTakes.snapshots]
    exact hShort
  · rw [hTakes.snapshots, hKnown]
    exact List.mem_cons_self

/- An operation without force leaves a session ready. -/
theorem Operation.isReady
    {s t : Session σ τ}
    (hOperation : Operation u False s t)
    (hReady : s.IsReady u) :
    t.IsReady u := by
  cases hOperation.changes hReady.consistent with
  | keep hKeeps => exact hKeeps.isReady hReady
  | accept cs _ hShort hTakes hKnown =>
      exact hTakes.isReady hReady.charwise hShort hKnown
  | force cs hForce => exact hForce.elim

/- All states between operations without force are ready. -/
theorem Operates.isReady
    {s t : Session σ τ}
    (hOperates : Operates u False s t)
    (hReady : s.IsReady u) :
    t.IsReady u := by
  induction hOperates with
  | refl => exact hReady
  | tail _ hOperation ih => exact hOperation.isReady ih

/- When files have been opened the session is ready. -/
theorem Starts.isReady
    {fs : List FilePair}
    {s : Session σ τ}
    {w : Workspace}
    {cs : List Bytes}
    (hStarts : Starts u fs s w cs)
    (hCharwise : u.rules.charset.IsCharwise)
    (hApart : ∀ p ∈ targets fs, u.log.IsApart p) :
    (s.afterOpening w cs).IsReady u := by
  refine ⟨hCharwise, hStarts.isConsistent hApart, ?_, ?_⟩
  · rw [hStarts.snapshots_eq]
    exact hStarts.short
  · rw [hStarts.snapshots_eq]
    exact List.mem_cons_self

end Session

end Whittle

------------------------------------------------------------
-- Cuts
------------------------------------------------------------

namespace Whittle

namespace SourceRules

variable {r : SourceRules} {cs cs' : List Bytes}

/- Cuts of all files do not add to their bulk. -/
theorem bulk_le_of_cuts
    (hCharwise : r.charset.IsCharwise)
    (hCuts : List.Forall₂ r.Cuts cs cs') :
    total (cs'.map Whittle.bulk) ≤ total (cs.map Whittle.bulk) :=
  weight_le_of_forall₂
    (hCuts.imp fun _ _ hOne => hOne.bulk_le hCharwise)

theorem eq_of_cuts
    (hCharwise : r.charset.IsCharwise)
    (hCuts : List.Forall₂ r.Cuts cs cs')
    (hLe : total (cs.map Whittle.bulk) ≤
      total (cs'.map Whittle.bulk)) :
    cs' = cs := by
  induction hCuts with
  | nil => rfl
  | cons hFirst hRest ih =>
      have hLess := hFirst.bulk_le hCharwise
      have hRestLess := bulk_le_of_cuts hCharwise hRest
      simp only [List.map_cons, total] at hLe
      rw [hFirst.eq_of_bulk_le hCharwise (by omega),
        ih (by omega)]

end SourceRules

namespace Session

variable {σ τ : Type} {u : Setup σ τ}

/- Cuts of all files are cuts of what has been accepted. -/
theorem cuts_of_isCut
    {s : Session σ τ}
    {cs : List Bytes}
    (hAll : List.Forall₂ (Scratch.IsCut u.rules)
      s.workspace.scratches cs) :
    List.Forall₂ u.rules.Cuts s.workspace.snapshots cs := by
  unfold Workspace.snapshots
  rw [List.forall₂_map_left_iff]
  refine hAll.imp ?_
  rintro f bs' ⟨bs, hSnapshot, hCuts⟩
  rw [hSnapshot]
  exact hCuts

/-
  Something that is less has been accepted, directly after the
  check has said yes to it.
-/
def Lowers
    (u : Setup σ τ)
    (s t : Session σ τ) : Prop :=
  t.IsReady u ∧ t.bulk < s.bulk ∧
    ∃ cs, t.trail =
      .accepted cs :: .asked cs (some true) :: s.trail

/- What is accepted of cuts that are new is less. -/
theorem Takes.bulk_lt
    {s t : Session σ τ}
    {m : Moment}
    {cs : List Bytes}
    (hTakes : s.Takes u m cs t)
    (hReady : s.IsReady u)
    (hNew : Workspace.fingerprint cs ∉ s.known)
    (hAll : List.Forall₂ (Scratch.IsCut u.rules)
      s.workspace.scratches cs) :
    t.bulk < s.bulk := by
  unfold bulk
  rw [hTakes.snapshots]
  by_contra hNot
  have hSame :=
    SourceRules.eq_of_cuts hReady.charwise (cuts_of_isCut hAll)
      (Nat.le_of_not_lt hNot)
  exact hNew (hSame ▸ hReady.known)

/-
  A trial of cuts keeps what has been accepted, or replaces it
  by something that is less.
-/
theorem Attempts.keeps_or_lowers
    {P : Scratch → Bytes → Prop}
    {s t : Session σ τ}
    {result : Option Bool}
    (hAttempts : Attempts u P s result t)
    (hReady : s.IsReady u)
    (hCut : ∀ f bs, P f bs → Scratch.IsCut u.rules f bs) :
    (s.Keeps t ∧ result ≠ some true) ∨
      (Lowers u s t ∧ result ≠ some false) := by
  rcases hAttempts.cases hReady.consistent with
    hKeeps | ⟨cs, hAll, hShort, hNew, hTakes, hKnown, hResult⟩
  · exact .inl hKeeps
  · have hLess := hTakes.bulk_lt hReady hNew (hAll.imp hCut)
    have hReady' := hTakes.isReady hReady.charwise hShort hKnown
    exact .inr ⟨⟨hReady', hLess, cs, hTakes.trail⟩, hResult⟩

/- What has been tried without success is known by then. -/
theorem Attempts.known
    {P : Scratch → Bytes → Prop}
    {s t : Session σ τ}
    (hAttempts : Attempts u P s (some false) t) :
    ∃ cs, List.Forall₂ P s.workspace.scratches cs ∧
      Workspace.AreShort cs ∧
      Workspace.fingerprint cs ∈ t.known := by
  cases hAttempts with
  | trial h cs _ _ hHolds hAll hTries =>
      have hAsked :
          ∀ {cs' v}, (s.withHost h).IsNew cs' →
            Logs u ((s.withHost h).afterAsking u cs') v →
            Workspace.AreShort cs ∧
              Workspace.fingerprint cs ∈ v.known := by
        intro cs' v hNew hLogs
        obtain rfl : cs = cs' :=
          Disk.Holds.unique hHolds hNew.holds
        exact ⟨hNew.short,
          hLogs.keeps.known _ List.mem_cons_self⟩
      refine ⟨cs, hAll, ?_⟩
      cases hTries with
      | skip cs' hHolds' hShort hKnown =>
          obtain rfl : cs = cs' :=
            Disk.Holds.unique hHolds hHolds'
          exact ⟨hShort, hKnown⟩
      | refuse cs' _ hNew _ hLogs => exact hAsked hNew hLogs
      | unreadable cs' v _ _ hNew _ hLogs =>
          have hKnown := hAsked hNew hLogs
          exact hKnown
      | accept _ _ _ _ _ _ _ _ _ _ _ hResult =>
          exact absurd rfl hResult

end Session

end Whittle

------------------------------------------------------------
-- Trials Of A Pass
------------------------------------------------------------

namespace Whittle

namespace Session

open Work

variable {σ τ : Type} {u : Setup σ τ} {s : Session σ τ}

/- A cleanup makes what has been accepted less if it commits. -/
theorem ends_readyCleanup
    (hReady : s.IsReady u)
    (isStrict : Bool) :
    Ends (tryCleanup u isStrict) s
      (fun outcome t =>
        (s.Keeps t ∧ outcome = .noProgress) ∨
          (Lowers u s t ∧ outcome = progressIf isStrict))
      (fun _ t => s.Keeps t ∨ Lowers u s t) := by
  refine (attempts_tryCleanup hReady.consistent isStrict).mono
    ?_ ?_
  · rintro _ t ⟨b, rfl, hAttempts⟩
    rcases hAttempts.keeps_or_lowers hReady (fun _ _ h => h) with
      ⟨hKeeps, hResult⟩ | ⟨hLowers, hResult⟩
    · cases b with
      | false => exact .inl ⟨hKeeps, rfl⟩
      | true => exact absurd rfl hResult
    · cases b with
      | false => exact absurd rfl hResult
      | true => exact .inr ⟨hLowers, rfl⟩
  · intro _ t hAttempts
    rcases hAttempts.keeps_or_lowers hReady (fun _ _ h => h) with
      ⟨hKeeps, _⟩ | ⟨hLowers, _⟩
    · exact .inl hKeeps
    · exact .inr hLowers

/-
  What is left of the accepted contents without some nodes has
  been tried: it is known.  If files have several names it may
  be that something else has been tried.
-/
def HasTried
    (u : Setup σ τ)
    (s : Session σ τ)
    (nodes : List NodeId) : Prop :=
  FilePath.AreDistinct s.paths →
    ∃ cs, s.cutOut u nodes = .ok cs ∧ Workspace.AreShort cs ∧
      Workspace.fingerprint cs ∈ s.known

theorem HasTried.keeps
    {t : Session σ τ}
    {nodes : List NodeId}
    (hTried : s.HasTried u nodes)
    (hKeeps : s.Keeps t) :
    t.HasTried u nodes := by
  intro hDistinct
  rw [hKeeps.paths_eq] at hDistinct
  obtain ⟨cs, hCutOut, hShort, hKnown⟩ := hTried hDistinct
  refine ⟨cs, ?_, hShort, hKeeps.known _ hKnown⟩
  unfold cutOut
  rw [hKeeps.scratches]
  exact hCutOut

/-
  Removing nodes makes what has been accepted less, or the
  nodes have been tried.
-/
theorem ends_readyRemove
    {nodes : List NodeId}
    (hReady : s.IsReady u) :
    Ends (tryRemove u nodes) s
      (fun outcome t =>
        (outcome = .noProgress ∧ s.Keeps t ∧
            (nodes ≠ [] → t.HasTried u nodes)) ∨
          (outcome = .progressed ∧ Lowers u s t))
      (fun _ _ => True) := by
  by_cases hNodes : nodes = []
  · subst hNodes
    exact ends_pure
      (.inl ⟨rfl, Std.Refl.refl s, fun h => absurd rfl h⟩)
  · refine (attempts_tryRemove hReady.consistent hNodes).mono ?_
      (fun _ _ _ => trivial)
    rintro _ t ⟨b, rfl, hAttempts⟩
    rcases hAttempts.keeps_or_lowers hReady
        (fun _ _ hOne => hOne.1) with
      ⟨hKeeps, hResult⟩ | ⟨hLowers, hResult⟩
    · cases b with
      | true => exact absurd rfl hResult
      | false =>
          refine .inl ⟨rfl, hKeeps, fun _ hDistinct => ?_⟩
          rw [hKeeps.paths_eq] at hDistinct
          obtain ⟨cs, hAll, hShort, hKnown⟩ := hAttempts.known
          refine ⟨cs, mapM_eq_ok_iff.mpr ?_, hShort, hKnown⟩
          rw [hKeeps.scratches]
          exact hAll.imp fun _ _ hOne => hOne.2 hDistinct
    · cases b with
      | false => exact absurd rfl hResult
      | true => exact .inr ⟨rfl, hLowers⟩

/-
  One of several sets of nodes makes what has been accepted
  less, or all of them have been tried.
-/
theorem ends_readyVariants
    (variants : List (List NodeId))
    (hReady : s.IsReady u) :
    Ends (tryVariants u variants) s
      (fun outcome t =>
        (outcome = .noProgress ∧ s.Keeps t ∧
            ∀ nodes ∈ variants, nodes ≠ [] →
              t.HasTried u nodes) ∨
          (outcome = .progressed ∧ t.IsReady u ∧
            t.bulk < s.bulk))
      (fun _ _ => True) := by
  induction variants generalizing s with
  | nil => exact ends_pure (.inl ⟨rfl, Std.Refl.refl s, by simp⟩)
  | cons nodes rest ih =>
      unfold tryVariants
      apply ends_bind
      refine (ends_readyRemove hReady).mono ?_ (fun _ _ h => h)
      rintro _ t (⟨rfl, hKeeps, hTried⟩ | ⟨rfl, hLowers⟩)
      · rw [if_pos rfl]
        refine (ih (hKeeps.isReady hReady)).mono ?_
          (fun _ _ h => h)
        rintro outcome v
          (⟨hOutcome, hKeeps', hAll⟩ | ⟨hOutcome, hReady', hLess⟩)
        · refine .inl
            ⟨hOutcome, trans_of Keeps hKeeps hKeeps', ?_⟩
          intro nodes' hNodes'
          rcases List.mem_cons.mp hNodes' with rfl | hMem
          · exact fun hSome => (hTried hSome).keeps hKeeps'
          · exact hAll nodes' hMem
        · rw [hKeeps.bulk_eq] at hLess
          exact .inr ⟨hOutcome, hReady', hLess⟩
      · rw [if_neg Outcome.noConfusion]
        exact ends_pure (.inr ⟨rfl, hLowers.1, hLowers.2.1⟩)

end Session

end Whittle

------------------------------------------------------------
-- Greedy Passes
------------------------------------------------------------

namespace Whittle

namespace Session

open Greedy Work

variable {σ : Type} {u : Setup σ Memory} {s : Session σ Memory}

/- All variants that are offered somewhere have been tried. -/
def HasTriedAll
    (u : Setup σ Memory)
    (s : Session σ Memory)
    (all : List ((Tree × Nat) × List NodeSet)) : Prop :=
  ∀ offer ∈ all, ∀ nodes ∈ offer.2, nodes ≠ [] →
    s.HasTried u nodes

/-
  A scan makes what has been accepted less at the first offer
  that makes a difference, or it goes on when everything that
  it offers has been tried.
-/
theorem ends_scan
    {g : Dependents}
    {otherwise : Memory → Memo → Plan Memory}
    {nodes : List (Tree × Nat)}
    {m : Memory}
    {memo : Memo}
    {Q : Outcome → Session σ Memory → Prop}
    (hReady : s.IsReady u)
    (hCountdown : m.countdown ≤ 1)
    (hProgress : ∀ t, t.IsReady u → t.bulk < s.bulk →
      Q .progressed t)
    (hOtherwise : ∀ m t, s.Keeps t →
      t.HasTriedAll u (offers g memo nodes) →
      Ends (carryOut u (otherwise m (memoAfter g memo nodes))) t
        Q (fun _ _ => True)) :
    Ends (carryOut u (scan g otherwise m memo nodes)) s
      Q (fun _ _ => True) := by
  induction nodes generalizing s m memo with
  | nil =>
      exact hOtherwise m s (Std.Refl.refl s)
        (fun _ hOffer => by cases hOffer)
  | cons node rest ih =>
      obtain ⟨t, i⟩ := node
      have hLook : m.advanced.countdown ≤ 0 := by
        unfold Memory.advanced
        dsimp only
        omega
      have hKeeps :
          s.Keeps { s with strategy := m.advanced } :=
        ⟨rfl, rfl, ⟨[], rfl, by simp⟩, fun _ hk => hk⟩
      unfold scan
      dsimp only
      rw [if_pos hLook]
      unfold carryOut
      apply ends_bind
      apply ends_modify
      unfold carryOut
      apply ends_bind
      refine (ends_readyVariants _ (hKeeps.isReady hReady)).mono
        ?_ (fun _ _ h => h)
      rintro _ v
        (⟨rfl, hKeeps', hTried⟩ | ⟨rfl, hReady', hLess⟩)
      · have hKept := trans_of Keeps hKeeps hKeeps'
        dsimp only
        rw [if_pos rfl]
        refine ih (hKept.isReady hReady) (by omega) ?_ ?_
        · intro v' hReady' hLess
          rw [hKept.bulk_eq] at hLess
          exact hProgress v' hReady' hLess
        · intro m' v' hKept' hAll
          refine hOtherwise m' v' (trans_of Keeps hKept hKept') ?_
          intro offer hOffer
          rcases List.mem_cons.mp hOffer with rfl | hMem
          · exact fun nodes hNodes hSome =>
              (hTried nodes hNodes hSome).keeps hKept'
          · exact hAll offer hMem
      · dsimp only
        rw [if_neg Outcome.noConfusion]
        exact ends_pure (hProgress v hReady' hLess)

/-
  What becomes of a pass that makes some offers in the end: it
  makes progress, which makes what has been accepted less, or
  all that it offers has been tried.
-/
def PassEnds
    (u : Setup σ Memory)
    (s : Session σ Memory)
    (all : List ((Tree × Nat) × List NodeSet))
    (outcome : Outcome)
    (t : Session σ Memory) : Prop :=
  t.IsReady u ∧
    ((outcome = .noProgress ∧ s.Keeps t ∧ t.HasTriedAll u all) ∨
      (outcome = .progressed ∧ t.bulk < s.bulk))

theorem PassEnds.keeps
    {t v : Session σ Memory}
    {all : List ((Tree × Nat) × List NodeSet)}
    {outcome : Outcome}
    (hKeeps : s.Keeps t)
    (hEnds : t.PassEnds u all outcome v) :
    s.PassEnds u all outcome v := by
  obtain ⟨hReady, ⟨hOutcome, hKeeps', hTried⟩ | hProgress⟩ := hEnds
  · exact ⟨hReady,
      .inl ⟨hOutcome, trans_of Keeps hKeeps hKeeps', hTried⟩⟩
  · rw [hKeeps.bulk_eq] at hProgress
    exact ⟨hReady, .inr hProgress⟩

/- A complete scan that ends the pass after all nodes. -/
theorem ends_completeScan
    {g : Dependents}
    {nodes : List (Tree × Nat)}
    {m : Memory}
    {memo : Memo}
    (hReady : s.IsReady u) :
    Ends
      (carryOut u
        (scan g (fun m _ => .remember m (.done .noProgress))
          m.restarted memo nodes)) s
      (s.PassEnds u (offers g memo nodes)) (fun _ _ => True) := by
  have hStart : m.restarted.countdown ≤ 1 := Int.zero_le_ofNat 1
  refine ends_scan hReady hStart ?_ ?_
  · exact fun t hReady' hLess => ⟨hReady', .inr ⟨rfl, hLess⟩⟩
  · intro m' t hKeeps hAll
    have hKeeps' : t.Keeps { t with strategy := m' } :=
      ⟨rfl, rfl, ⟨[], rfl, by simp⟩, fun _ hk => hk⟩
    have hKept := trans_of Keeps hKeeps hKeeps'
    unfold carryOut
    apply ends_bind
    apply ends_modify
    refine ends_pure ⟨hKept.isReady hReady, .inl ⟨rfl, hKept, ?_⟩⟩
    exact fun offer hOffer nodes hNodes hSome =>
      (hAll offer hOffer nodes hNodes hSome).keeps hKeeps'

/-
  A pass of the greedy strategy makes progress, or everything
  that its complete scan offers has been tried.
-/
theorem ends_greedyPass
    (hReady : s.IsReady u)
    (m : Memory)
    (p : Provider)
    (ts : List Tree) :
    Ends (carryOut u (Greedy.pass m p ts)) s
      (s.PassEnds u (lastOffers m p ts)) (fun _ _ => True) := by
  have hPassedOver :
      (m.resumed.countdown - 1).toNat = m.position - 1 := by
    unfold Memory.resumed
    dsimp only
    omega
  have hAgain :
      ∀ (m' : Memory) (t : Session σ Memory), s.Keeps t →
        Ends
          (carryOut u
            (scan (Dependents.ofTrees p ts)
              (fun m _ => .remember m (.done .noProgress))
              m'.restarted
              (memoAfter (Dependents.ofTrees p ts) ∅
                ((candidates ts).drop (m.position - 1)))
              (candidates ts))) t
          (s.PassEnds u (lastOffers m p ts)) (fun _ _ => True) := by
    intro m' t hKeeps
    refine (ends_completeScan (hKeeps.isReady hReady)).mono ?_
      (fun _ _ h => h)
    exact fun _ v hEnds => hEnds.keeps hKeeps
  unfold Greedy.pass
  dsimp only
  obtain ⟨m', hLook, hScan⟩ :=
    scan_passedOver (Dependents.ofTrees p ts)
      (fun m memo =>
        scan (Dependents.ofTrees p ts)
          (fun m _ => .remember m (.done .noProgress))
          m.restarted memo (candidates ts))
      ∅ (candidates ts) hPassedOver
  rw [hScan]
  rcases hLook with hLook | hNone
  · refine ends_scan hReady hLook ?_ ?_
    · exact fun t hReady' hLess => ⟨hReady', .inr ⟨rfl, hLess⟩⟩
    · exact fun m' t hKeeps _ => hAgain m' t hKeeps
  · have hDrop := hAgain m' s (Std.Refl.refl s)
    rw [hNone] at hDrop ⊢
    exact hDrop

/-
  A pass of the greedy strategy ends with progress, which
  makes what has been accepted less, or when all that it
  offers has been tried.
-/
theorem ends_readyPass
    (hGreedy : u.strategy = greedy)
    (hReady : s.IsReady u) :
    Ends (singlePass u) s
      (s.PassEnds u
        (Greedy.lastOffers s.strategy (.ofParsed s.roots)
          (s.roots.map (·.tree))))
      (fun _ _ => True) := by
  unfold singlePass
  apply ends_bind
  apply ends_get
  rw [hGreedy]
  exact ends_greedyPass hReady _ _ _

end Session

end Whittle

------------------------------------------------------------
-- Small Runs
------------------------------------------------------------

namespace Whittle

namespace Session

/-
  A language of texts of one line, in which the first character
  is a node below the root.
-/
def oneLine : FrontEnd where
  name := "one line"
  parse := fun name text =>
    if text.contains '\n' then
      none
    else
      some
        { tree :=
            { identity := 0
              name := name
              entries :=
                #[⟨"Line", none, ⟨⟨1, 1⟩, ⟨1, 1⟩⟩, [1]⟩,
                  ⟨"Head", none, ⟨⟨1, 1⟩, ⟨1, 1⟩⟩, []⟩]
              parents := #[none, some 0] }
          relations := fun _ => .none }
  isRemovableGap := fun _ => false

/-
  A setup with the greedy strategy whose check looks at nothing
  but what the files hold, with a log in the directory that is
  called `log`.
-/
def greedySetup
    (verdict : List Bytes → Bool) : Setup Unit Greedy.Memory where
  rules := ⟨oneLine, .known .utf8, false⟩
  check :=
    { Check.always with
      ask := fun _ view =>
        match view.files.mapM view.disk.read with
        | .ok cs => (.ok (verdict cs), ())
        | .error e => (.error (.disk e), ()) }
  strategy := greedy
  log := ⟨⟨.number 0, "", "run"⟩, some (.ofText "log"), false⟩

/- One file that is opened for a small greedy run. -/
def greedyOpened
    (verdict : List Bytes → Bool)
    (output : String)
    (contents : Bytes) :
    Except Failure Unit × Session Unit Greedy.Memory :=
  openFiles (greedySetup verdict) [⟨"a", output⟩]
    (initial (greedySetup verdict)
      (.ofDisk
        ⟨[(.ofText "a", .file contents),
          (.ofText "log", .directory)]⟩))

end Session

end Whittle
