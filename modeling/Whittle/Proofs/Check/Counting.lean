import Whittle.Check.Command

/-
  What a check that runs a command counts.

  Key definitions include:
    * `CommandCheck.Memory.CountsAs`
    * `CommandCheck.Asks`

  Main statements:
    * `CommandCheck.asks_ask`
    * `CommandCheck.Asks.eq_of_not_parseable`

  A command that has come to its end is counted before it is
  judged.  So one that cannot be judged is counted as well,
  but not as one that has met the expectation.
-/

------------------------------------------------------------
-- Counts
------------------------------------------------------------

namespace Whittle

namespace CommandCheck

variable {κ : Type}

/-
  So many commands more have run, and so many more of them
  have met the expectation.
-/
structure Memory.CountsAs
    (m m' : Memory κ)
    (spawned fruitful : Nat) : Prop where
  spawned : m'.spawned = m.spawned + spawned
  fruitful : m'.fruitful = m.fruitful + fruitful

/- Starting a check counts nothing. -/
theorem countsAs_start
    (r : Runner κ)
    (c : CheckedCommand)
    (m : Memory κ)
    (v : View) :
    m.CountsAs (start r c m v).2.1 0 0 := by
  unfold start startServer
  dsimp only
  split
  · split
    · exact ⟨rfl, rfl⟩
    · split
      · exact ⟨rfl, rfl⟩
      · split <;> exact ⟨rfl, rfl⟩
  · exact ⟨rfl, rfl⟩

/- Running a command counts nothing by itself. -/
theorem countsAs_spawn
    (r : Runner κ)
    (c : CheckedCommand)
    (m : Memory κ)
    (v : View) :
    m.CountsAs (spawn r c m v).2 0 0 := by
  unfold spawn
  split
  · dsimp only
    split <;> exact ⟨rfl, rfl⟩
  · exact ⟨rfl, rfl⟩

end CommandCheck

end Whittle

------------------------------------------------------------
-- Questions
------------------------------------------------------------

namespace Whittle

namespace CommandCheck

variable {κ : Type} {r : Runner κ} {c : CheckedCommand}
variable {m : Memory κ} {v : View}

/-
  What becomes of a question.
    * `idle` : nothing has been run, as not all files can be
      parsed, or as that cannot be told.
    * `stop` : the command could not be run to its end.
    * `misjudge` : it has run, but cannot be judged.
    * `judge` : it has run, and meets the expectation or not.
-/
inductive Asks
    (c : CheckedCommand)
    (m : Memory κ)
    (v : View) : Except Failure Bool → Memory κ → Prop
| idle (answer : Except Failure Bool)
    (hAnswer : answer = .ok false →
      v.areParseable () = .ok false)
    (hMet : answer ≠ .ok true) :
    Asks c m v answer m
| stop (e : Failure) (m' : Memory κ)
    (hParseable : v.areParseable () = .ok true)
    (hCounts : m.CountsAs m' 0 0) :
    Asks c m v (.error e) m'
| misjudge (e : Failure) (m' : Memory κ) (o : Outputs)
    (hParseable : v.areParseable () = .ok true)
    (hJudge : c.verdict.judge o = .error e)
    (hCounts : m.CountsAs m' 1 0) :
    Asks c m v (.error e) m'
| judge (isMet : Bool) (m' : Memory κ)
    (hParseable : v.areParseable () = .ok true)
    (hCounts : m.CountsAs m' 1 isMet.toNat) :
    Asks c m v (.ok isMet) m'

/- Every question ends in one of these ways. -/
theorem asks_ask
    (r : Runner κ)
    (c : CheckedCommand)
    (m : Memory κ)
    (v : View) :
    Asks c m v (ask r c m v).1 (ask r c m v).2 := by
  have hSpawn := countsAs_spawn r c m v
  unfold ask
  split
  · cases hParseable : v.areParseable () with
    | error e => exact .idle _ (by simp) (by simp)
    | ok isParseable =>
        cases isParseable with
        | false => exact .idle _ (fun _ => hParseable) (by simp)
        | true =>
            dsimp only
            rcases hRun : spawn r c m v with ⟨e | o, m'⟩
            · rw [hRun] at hSpawn
              exact .stop e m' hParseable hSpawn
            · rw [hRun] at hSpawn
              dsimp only
              cases hJudge : c.verdict.judge o with
              | error e =>
                  exact .misjudge e _ o hParseable hJudge
                    ⟨congrArg (· + 1) hSpawn.spawned,
                      hSpawn.fruitful⟩
              | ok isMet =>
                  cases isMet with
                  | false =>
                      exact .judge false _ hParseable
                        ⟨congrArg (· + 1) hSpawn.spawned,
                          hSpawn.fruitful⟩
                  | true =>
                      exact .judge true _ hParseable
                        ⟨congrArg (· + 1) hSpawn.spawned,
                          congrArg (· + 1) hSpawn.fruitful⟩
  · exact .idle _ (by simp) (by simp)

theorem Asks.eq_of_not_parseable
    {answer : Except Failure Bool}
    {m' : Memory κ}
    (hAsks : Asks c m v answer m')
    (hParseable : v.areParseable () ≠ .ok true) :
    m' = m := by
  cases hAsks with
  | idle => rfl
  | stop e m' hAll => exact absurd hAll hParseable
  | misjudge e m' o hAll => exact absurd hAll hParseable
  | judge isMet m' hAll => exact absurd hAll hParseable

end CommandCheck

end Whittle
