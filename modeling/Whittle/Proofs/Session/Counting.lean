import Whittle.Proofs.Check.Counting
import Whittle.Proofs.Session.Commit
import Whittle.Proofs.Session.Tally

/-
  What a trial adds to the counts of a session.

  Key definitions include:
    * `Session.tally`

  Main statements:
    * `Session.offers_ask`
    * `Session.offers_commit`
    * `Session.tallies_tryCommit`

  A trial that the check has said yes to is accepted: all
  files could be read when the check was asked, and logging
  the answer has left them as they were.
-/

------------------------------------------------------------
-- Files That Can Be Parsed
------------------------------------------------------------

namespace Whittle

/- A file can be parsed if its contents can be read. -/
theorem Scratch.isParseable_iff
    {r : SourceRules}
    {s : Scratch}
    {h : Host}
    {bs : Bytes}
    (hRead : h.disk.read s.path = .ok bs) :
    s.isParseable r h = .ok true ↔ r.IsReadable s.path bs := by
  have hLoad : (s.load r).run.run h = (r.readTree s.path bs, h) := by
    rw [← readFile_of_read hRead]
    exact s.load_eq r h
  unfold isParseable SourceRules.IsReadable
  rw [hLoad]
  cases r.readTree s.path bs with
  | ok parsed => simp
  | error e => cases e <;> simp

/- All files can be parsed if their contents can be read. -/
theorem Workspace.areParseable_iff
    {r : SourceRules}
    {h : Host}
    {ss : List Scratch}
    {cs : List Bytes}
    (hHolds : h.disk.Holds (ss.map (·.path)) cs) :
    areParseable r h ss = .ok true ↔
      r.AreReadable (ss.map (·.path)) cs := by
  unfold SourceRules.AreReadable
  induction ss generalizing cs with
  | nil =>
      cases hHolds
      simp [areParseable]
  | cons s rest ih =>
      rw [List.map_cons] at hHolds ⊢
      cases hHolds with
      | cons hRead hRest =>
          rw [List.forall₂_cons, ← ih hRest,
            ← Scratch.isParseable_iff hRead]
          rw [areParseable]
          cases s.isParseable r h with
          | error e => simp
          | ok isParseable => cases isParseable <;> simp

end Whittle

------------------------------------------------------------
-- Questions
------------------------------------------------------------

namespace Whittle

/-
  A question to which the check does not say yes is balanced,
  together with what the check has counted for it.
-/
theorem CommandCheck.Asks.exists_balanced
    {κ : Type}
    {c : CheckedCommand}
    {r : SourceRules}
    {m m' : Memory κ}
    {v : View}
    {answer : Except Failure Bool}
    {ps : List FilePath}
    {cs : List Bytes}
    (hAsks : Asks c m v answer m')
    (key : Bytes)
    (hParseable :
      v.areParseable () = .ok true ↔ r.AreReadable ps cs)
    (hMet : answer ≠ .ok true) :
    ∃ spawned, m.CountsAs m' spawned 0 ∧
      (TallyEntry.ask key spawned cs answer.toOption).IsBalanced
        c r ps := by
  cases hAsks with
  | idle _ hIdle _ =>
      refine ⟨0, ⟨rfl, rfl⟩, TallyEntry.isBalanced_ask
        (Nat.zero_le _) ?_ (fun _ _ => rfl)⟩
      intro hSome
      cases answer with
      | error e => cases hSome
      | ok b =>
          cases b with
          | true => exact absurd rfl hMet
          | false =>
              rw [hIdle rfl] at hParseable
              rw [if_neg fun hReadable =>
                absurd (hParseable.mpr hReadable) (by simp)]
  | stop e _ _ hCounts =>
      exact ⟨0, hCounts, TallyEntry.isBalanced_ask
        (Nat.zero_le _) (fun hSome => by cases hSome)
        (fun _ _ => rfl)⟩
  | misjudge e _ o hAll hJudge hCounts =>
      refine ⟨1, hCounts, TallyEntry.isBalanced_ask ?_
        (fun hSome => by cases hSome) ?_⟩
      · exact Nat.le_of_eq (if_pos (hParseable.mp hAll)).symm
      · intro _ hJudges
        obtain ⟨b, hOk⟩ := hJudges o
        rw [hJudge] at hOk
        cases hOk
  | judge isMet _ hAll hCounts =>
      cases isMet with
      | true => exact absurd rfl hMet
      | false =>
          have hOne :
              (1 : Nat) = if r.AreReadable ps cs then 1 else 0 :=
            (if_pos (hParseable.mp hAll)).symm
          exact ⟨1, hCounts, TallyEntry.isBalanced_ask
            (Nat.le_of_eq hOne) (fun _ => hOne)
            (fun hNone => by cases hNone)⟩

end Whittle

------------------------------------------------------------
-- Trials
------------------------------------------------------------

namespace Whittle

namespace Session

open Moment Work

variable {κ τ : Type} {runner : Runner κ} {c : CheckedCommand}
variable {u : Setup (CommandCheck.Memory κ) τ}
variable {s t : Session (CommandCheck.Memory κ) τ} {cs : List Bytes}

/- What a session has counted, with what has happened in it. -/
def tally
    (s : Session (CommandCheck.Memory κ) τ) : Tally where
  known := s.known
  trials := s.trials
  skipped := s.skipped
  spawned := s.check.spawned
  fruitful := s.check.fruitful
  trail := s.trail
  paths := s.paths

/- What becomes of a question to the check of a command. -/
theorem asks_answer
    (hCheck : u.check = CommandCheck.check runner c)
    (s : Session (CommandCheck.Memory κ) τ) :
    CommandCheck.Asks c s.check (view u s) (s.answer u).1
      (s.answer u).2 := by
  unfold answer
  rw [hCheck]
  exact CommandCheck.asks_ask runner c s.check (view u s)

/- All files can be parsed if what they hold can be read. -/
theorem areParseable_view_iff
    (hHolds : s.Holds cs) :
    (view u s).areParseable () = .ok true ↔
      u.rules.AreReadable s.paths cs :=
  Workspace.areParseable_iff hHolds

theorem offers_skip
    (s : Session (CommandCheck.Memory κ) τ)
    (cs : List Bytes) :
    s.tally.Offers c u.rules (s.afterSkipping cs).tally :=
  ⟨.skip cs, TallyEntry.isBalanced_skip, id, rfl⟩

theorem IsNew.nodup
    (hNew : s.IsNew cs)
    (hKnown : s.known.Nodup) :
    (Workspace.fingerprint cs :: s.known).Nodup :=
  List.nodup_cons.mpr ⟨hNew.unknown, hKnown⟩

theorem offers_ask
    (hCheck : u.check = CommandCheck.check runner c)
    (hNew : s.IsNew cs)
    (hMet : (s.answer u).1 ≠ .ok true) :
    s.tally.Offers c u.rules (s.afterAsking u cs).tally := by
  obtain ⟨spawned, hCounts, hBalanced⟩ :=
    (asks_answer hCheck s).exists_balanced
      (Workspace.fingerprint cs) (areParseable_view_iff hNew.holds)
      hMet
  have hSpawned :
      (s.afterAsking u cs).check.spawned =
        s.check.spawned + spawned := hCounts.spawned
  have hFruitful :
      (s.afterAsking u cs).check.fruitful =
        s.check.fruitful := hCounts.fruitful
  refine ⟨_, hBalanced, hNew.nodup, ?_⟩
  unfold tally
  rw [hSpawned, hFruitful]
  rfl

/-
  A trial that the check says yes to is offered, when what the
  check was asked about has been accepted.
-/
theorem offers_commit
    (hCheck : u.check = CommandCheck.check runner c)
    (hNew : s.IsNew cs)
    (hMet : (s.answer u).1 = .ok true) :
    u.rules.AreReadable s.paths cs ∧
      s.tally.Offers c u.rules
        { (s.afterAsking u cs).tally with
          trail := .accepted cs :: (s.afterAsking u cs).trail } := by
  have hAsks := asks_answer hCheck s
  rw [hMet] at hAsks
  generalize hMemory : (s.answer u).2 = memory at hAsks
  cases hAsks with
  | idle _ _ hNot => exact absurd rfl hNot
  | judge _ _ hAll hCounts =>
      rw [← hMemory] at hCounts
      have hReadable := (areParseable_view_iff hNew.holds).mp hAll
      have hSpawned :
          (s.afterAsking u cs).check.spawned =
            s.check.spawned + 1 := hCounts.spawned
      have hFruitful :
          (s.afterAsking u cs).check.fruitful =
            s.check.fruitful + 1 := hCounts.fruitful
      refine ⟨hReadable, .commit (Workspace.fingerprint cs) cs,
        TallyEntry.isBalanced_commit hReadable, hNew.nodup, ?_⟩
      unfold tally
      rw [hSpawned, hFruitful]
      unfold afterAsking
      rw [hMet]
      rfl

end Session

end Whittle

------------------------------------------------------------
-- One Trial
------------------------------------------------------------

namespace Whittle

namespace Session

open Work

variable {κ τ : Type} {runner : Runner κ} {c : CheckedCommand}
variable {u : Setup (CommandCheck.Memory κ) τ}
variable {s t : Session (CommandCheck.Memory κ) τ} {cs : List Bytes}

/- Logging counts nothing. -/
theorem Logs.tally_eq
    (hLogs : Logs u s t) :
    t.tally = s.tally := by
  obtain ⟨h, _, rfl⟩ := hLogs
  rfl

/- Files that are accepted are noted, and nothing is counted. -/
theorem tally_afterAccepting
    {w : Workspace}
    (hCommits : s.workspace.Commits u.rules w) :
    (s.afterAccepting w cs).tally =
      { s.tally with trail := .accepted cs :: s.trail } := by
  have hPaths : (s.afterAccepting w cs).paths = s.paths :=
    hCommits.paths_eq
  unfold tally
  rw [hPaths]
  rfl

theorem not_refuses
    {w : Workspace}
    (hReadable : u.rules.AreReadable s.paths cs)
    (hLogs : Logs u (s.afterAsking u cs) t)
    (hHolds : t.Holds cs) :
    ¬ t.workspace.Refuses u.rules w := by
  intro hRefuses
  have hPaths : t.paths = s.paths := hLogs.paths_eq
  apply hRefuses.not_areReadable hHolds
  rwa [← hPaths] at hReadable

/- A trial is counted as one, unless it cannot be told. -/
theorem tallies_tryCommit
    (hCheck : u.check = CommandCheck.check runner c)
    (hApart : s.IsApart u)
    (hStarted : u.log.IsStarted s.disk) :
    Ends (tryCommit u) s
      (fun _ t => s.tally.Offers c u.rules t.tally)
      (fun _ t => t.tally = s.tally ∨
        s.tally.Offers c u.rules t.tally) := by
  apply ends_tryCommit_of hApart
  case hStop => exact fun _ _ => .inl rfl
  case hSkip => exact fun cs _ _ _ => offers_skip s cs
  case hFail =>
    exact fun cs _ hNew hAnswer =>
      .inr (offers_ask hCheck hNew (by simp [hAnswer]))
  case hUnlogged =>
    exact fun _ _ _ hFull => absurd hStarted.canAdd hFull
  case hRefuse =>
    intro cs t hNew hAnswer hLogs
    rw [hLogs.tally_eq]
    exact offers_ask hCheck hNew (by simp [hAnswer])
  case hAccept =>
    intro cs t hNew hAnswer hLogs hHolds hStarted'
    obtain ⟨hReadable, hOffers⟩ := offers_commit hCheck hNew hAnswer
    apply ends_acceptTried hHolds
    · exact fun w hRefuses =>
        absurd hRefuses (not_refuses hReadable hLogs hHolds)
    · intro w v hCommits hLogs'
      refine ⟨?_, absurd hStarted'.canAdd⟩
      have hTrail : t.trail = (s.afterAsking u cs).trail :=
        congrArg Tally.trail hLogs.tally_eq
      rw [hLogs'.tally_eq, tally_afterAccepting hCommits,
        hLogs.tally_eq, hTrail]
      exact hOffers

end Session

end Whittle
