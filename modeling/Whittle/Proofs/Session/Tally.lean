import Whittle.Check.Verdict
import Whittle.Proofs.Session.Kept

/-
  Counts, and what they count.

  Key definitions include:
    * `Tally.Agrees`
    * `TallyEntry.IsBalanced`
    * `Tally.Offers`

  Main statements:
    * `Tally.Agrees.add`
    * `Tally.Offers.agrees`

  The trail of a run tells what has happened in it, so the
  counts of a run are compared with it.  A trial adds a few
  moments to the trail.  If what it adds to the counts fits
  these, the counts agree as before.
-/

------------------------------------------------------------
-- Kinds Of Moments
------------------------------------------------------------

namespace Whittle

namespace Moment

/- The check is asked. -/
def isAsked : Moment → Bool
  | asked _ _ => true
  | skipped _ | forced _ | accepted _ => false

/- A trial is offered, whether the check is asked or not. -/
def isOffered : Moment → Bool
  | asked _ _ => true
  | skipped _ => true
  | _ => false

/- Contents are accepted. -/
def isAccepted : Moment → Bool
  | accepted _ => true
  | _ => false

/- The check is asked about files that can all be parsed. -/
def isParseable
    (r : SourceRules)
    (ps : List FilePath) : Moment → Bool
  | asked cs _ => r.AreReadable ps cs
  | skipped _ | forced _ | accepted _ => false

/- The check has given an answer about such files. -/
def isJudged
    (r : SourceRules)
    (ps : List FilePath) : Moment → Bool
  | asked cs (some _) => r.AreReadable ps cs
  | asked _ none => false
  | skipped _ | forced _ | accepted _ => false

end Moment

end Whittle

------------------------------------------------------------
-- The Tally
------------------------------------------------------------

namespace Whittle

/- What is counted in a run, and what has happened in it. -/
structure Tally where
  known : List Bytes
  trials : Nat
  skipped : Nat
  spawned : Nat
  fruitful : Nat
  trail : List Moment
  paths : List FilePath

namespace Tally

open Moment

/-
  The counts agree with the trail.
    * `distinct`, `known` : each trial has made one state more
      known than the one at the start.
    * `trials`, `offers` : the trials are the questions, and
      with the skipped ones they are all that were offered.
    * `fruitful` : commands that met the expectation have run.
    * `commits` : each of them has led to a commit, and one
      commit was made at the start.
    * `judged`, `parseable` : commands have run for all trials
      that the check has answered of files that can be parsed,
      and only for trials of such files.
    * `exact` : if every outcome can be judged, commands are
      counted for no other trials.
-/
structure Agrees
    (c : CheckedCommand)
    (r : SourceRules)
    (y : Tally) : Prop where
  distinct : y.known.Nodup
  known : y.known.length = y.trials + 1
  trials : y.trials = y.trail.countP isAsked
  offers : y.trials + y.skipped = y.trail.countP isOffered
  fruitful : y.fruitful ≤ y.spawned
  commits : y.trail.countP isAccepted = y.fruitful + 1
  judged : y.trail.countP (isJudged r y.paths) ≤ y.spawned
  parseable : y.spawned ≤
    y.trail.countP (Moment.isParseable r y.paths)
  exact : (∀ o, ∃ b, c.verdict.judge o = .ok b) →
    y.spawned = y.trail.countP (isJudged r y.paths)

variable {c : CheckedCommand} {r : SourceRules} {y : Tally}
variable {cs : List Bytes} {key : Bytes}

/- Not more commands have run than there were trials. -/
theorem Agrees.spawned_le
    (hAgrees : y.Agrees c r) :
    y.spawned ≤ y.trials := by
  have hMono :
      y.trail.countP (Moment.isParseable r y.paths) ≤
        y.trail.countP isAsked := by
    refine List.countP_mono_left fun m _ hm => ?_
    cases m with
    | asked => rfl
    | skipped | forced | accepted => cases hm
  rw [hAgrees.trials]
  exact Nat.le_trans hAgrees.parseable hMono

end Tally

end Whittle

------------------------------------------------------------
-- What One Trial Adds
------------------------------------------------------------

namespace Whittle

open Moment

/- What one trial adds to a tally, the last moment first. -/
structure TallyEntry where
  keys : List Bytes
  skipped : Nat
  spawned : Nat
  fruitful : Nat
  moments : List Moment

/- A tally with one entry more. -/
def Tally.add
    (y : Tally)
    (e : TallyEntry) : Tally where
  known := e.keys ++ y.known
  trials := y.trials + e.keys.length
  skipped := y.skipped + e.skipped
  spawned := y.spawned + e.spawned
  fruitful := y.fruitful + e.fruitful
  trail := e.moments ++ y.trail
  paths := y.paths

/-
  One trial is counted, and what is counted for it agrees with
  its moments.
-/
structure TallyEntry.IsBalanced
    (c : CheckedCommand)
    (r : SourceRules)
    (ps : List FilePath)
    (e : TallyEntry) : Prop where
  single : e.keys.length + e.skipped = 1
  trials : e.moments.countP isAsked = e.keys.length
  offers : e.moments.countP isOffered = 1
  fruitful : e.fruitful ≤ e.spawned
  commits : e.moments.countP isAccepted = e.fruitful
  judged : e.moments.countP (isJudged r ps) ≤ e.spawned
  parseable : e.spawned ≤ e.moments.countP (Moment.isParseable r ps)
  exact : (∀ o, ∃ b, c.verdict.judge o = .ok b) →
    e.spawned = e.moments.countP (isJudged r ps)

variable {c : CheckedCommand} {r : SourceRules}
variable {y : Tally} {e : TallyEntry}

theorem Tally.Agrees.add
    (hAgrees : y.Agrees c r)
    (hNew : (e.keys ++ y.known).Nodup)
    (hBalanced : e.IsBalanced c r y.paths) :
    (y.add e).Agrees c r := by
  have hKnown := hAgrees.known
  have hTrials := hAgrees.trials
  have hOffers := hAgrees.offers
  have hCommits := hAgrees.commits
  have hTrials' := hBalanced.trials
  have hSingle := hBalanced.single
  have hOffers' := hBalanced.offers
  have hCommits' := hBalanced.commits
  constructor <;> unfold Tally.add <;> dsimp only
  case distinct => exact hNew
  case known =>
    rw [List.length_append]
    omega
  case trials =>
    rw [List.countP_append]
    omega
  case offers =>
    rw [List.countP_append]
    omega
  case fruitful =>
    exact Nat.add_le_add hAgrees.fruitful hBalanced.fruitful
  case commits =>
    rw [List.countP_append]
    omega
  case judged =>
    rw [List.countP_append, Nat.add_comm]
    exact Nat.add_le_add hAgrees.judged hBalanced.judged
  case parseable =>
    rw [List.countP_append, Nat.add_comm]
    exact Nat.add_le_add hBalanced.parseable hAgrees.parseable
  case exact =>
    intro hJudges
    rw [List.countP_append, ← hBalanced.exact hJudges,
      ← hAgrees.exact hJudges, Nat.add_comm]

/- One trial is offered, and what is tried is new. -/
def Tally.Offers
    (c : CheckedCommand)
    (r : SourceRules)
    (y y' : Tally) : Prop :=
  ∃ e : TallyEntry, e.IsBalanced c r y.paths ∧
    (y.known.Nodup → (e.keys ++ y.known).Nodup) ∧ y' = y.add e

/- Counts that agree still do so after a trial. -/
theorem Tally.Offers.agrees
    {y' : Tally}
    (hOffers : y.Offers c r y')
    (hAgrees : y.Agrees c r) :
    y'.Agrees c r := by
  obtain ⟨e, hBalanced, hNew, rfl⟩ := hOffers
  exact hAgrees.add (hNew hAgrees.distinct) hBalanced

theorem Tally.Offers.paths_eq
    {y' : Tally}
    (hOffers : y.Offers c r y') :
    y'.paths = y.paths := by
  obtain ⟨e, _, _, rfl⟩ := hOffers
  rfl

/- A trial is counted once, whether it is skipped or not. -/
theorem Tally.Offers.offered_eq
    {y' : Tally}
    (hOffers : y.Offers c r y') :
    y'.trials + y'.skipped = y.trials + y.skipped + 1 := by
  obtain ⟨e, hBalanced, _, rfl⟩ := hOffers
  have hSingle := hBalanced.single
  unfold Tally.add
  dsimp only
  omega

namespace TallyEntry

variable {ps : List FilePath} {cs : List Bytes}

/- A trial that is skipped. -/
def skip
    (cs : List Bytes) : TallyEntry :=
  ⟨[], 1, 0, 0, [.skipped cs]⟩

/- A trial after which nothing is accepted. -/
def ask
    (key : Bytes)
    (spawned : Nat)
    (cs : List Bytes)
    (answer : Option Bool) : TallyEntry :=
  ⟨[key], 0, spawned, 0, [.asked cs answer]⟩

/- A trial after which its contents are accepted. -/
def commit
    (key : Bytes)
    (cs : List Bytes) : TallyEntry :=
  ⟨[key], 0, 1, 1, [.accepted cs, .asked cs (some true)]⟩

theorem isBalanced_skip :
    (skip cs).IsBalanced c r ps := by
  constructor <;> simp [skip, isAsked, isOffered, isAccepted,
    isJudged, Moment.isParseable]

/-
  A trial is balanced if a command has been counted for files
  that can be parsed, and not before it could be judged.
-/
theorem isBalanced_ask
    {key : Bytes}
    {spawned : Nat}
    {answer : Option Bool}
    (hParseable : spawned ≤ if r.AreReadable ps cs then 1 else 0)
    (hJudged : answer.isSome →
      spawned = if r.AreReadable ps cs then 1 else 0)
    (hExact : answer = none →
      (∀ o, ∃ b, c.verdict.judge o = .ok b) → spawned = 0) :
    (ask key spawned cs answer).IsBalanced c r ps := by
  constructor
  case judged =>
    cases answer with
    | none => simp [ask, isJudged]
    | some b => simp [ask, isJudged, List.countP_singleton, hJudged]
  case exact =>
    intro hJudges
    cases answer with
    | none => simpa [ask, isJudged] using hExact rfl hJudges
    | some b =>
        simpa [ask, isJudged, List.countP_singleton]
          using hJudged rfl
  case parseable =>
    simpa [ask, Moment.isParseable, List.countP_singleton]
      using hParseable
  all_goals simp [ask, isAsked, isOffered, isAccepted]

theorem isBalanced_commit
    {key : Bytes}
    (hReadable : r.AreReadable ps cs) :
    (commit key cs).IsBalanced c r ps := by
  constructor
  case commits => rfl
  all_goals
    simp [commit, isAsked, isOffered, isJudged, Moment.isParseable,
      hReadable]

end TallyEntry

end Whittle
