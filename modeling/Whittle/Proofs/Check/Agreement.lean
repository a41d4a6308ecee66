import Whittle.Check.Command
import Whittle.Proofs.Server.Dialogue

/-
  Checks by a server and checks without one.

  Key definitions include:
    * `Verdict.WantsOneRow`
    * `ProcessEnding`
    * `CommandCheck.RunsAs`
    * `CommandCheck.IsServedAs`

  Main statements:
    * `Verdict.judge_eq_judge`
    * `CommandCheck.spawn_agrees`
    * `CommandCheck.ask_eq_ask`

  The rows of a finished command end at more characters than
  the lines that a server sends.  What stands in one row of
  either stands somewhere in the text, and the other way
  round, so both say the same about a message.
-/

------------------------------------------------------------
-- Verdicts On Rows
------------------------------------------------------------

namespace Whittle

namespace Text

variable {needle : Text}

/- Rows and lines hold the same messages. -/
theorem any_rows_eq_any_outputLines
    (hFree : ∀ c ∈ needle, isRowEnd c = false)
    (t : Text) :
    (rows t).any (isWithin needle) =
      (outputLines t).any (isWithin needle) := by
  have hNewline : '\n' ∉ needle := by
    intro hMem
    exact absurd (hFree '\n' hMem) (by decide)
  rw [any_outputLines hNewline]
  exact any_rowsFrom hFree [] t

/- Only a text without characters has no rows. -/
theorem rows_eq_nil_iff
    (t : Text) :
    rows t = [] ↔ t = [] := by
  unfold rows
  rw [rowsFrom_eq_nil_iff]
  simp

end Text

namespace Verdict

/- A wanted message fits in one row. -/
def WantsOneRow
    (v : Verdict) : Prop :=
  ∀ s : String,
    v = message (.text s) →
      ∀ c ∈ s.toList, Text.isRowEnd c = false

/-
  Rows and lines of the same texts, with the same exit code,
  are judged alike.
-/
theorem judge_eq_judge
    {v : Verdict}
    (hRow : v.WantsOneRow)
    (code : Int)
    (out err : Text) :
    v.judge ⟨code, Text.rows out, Text.rows err⟩ =
      v.judge ⟨code, out.outputLines, err.outputLines⟩ := by
  cases v with
  | exitCode least greatest => rfl
  | message wanted =>
      have hEmpty :
          (Text.rows out ++ Text.rows err).isEmpty =
            (out.outputLines ++ err.outputLines).isEmpty := by
        rw [Bool.eq_iff_iff, List.isEmpty_iff, List.isEmpty_iff,
          List.append_eq_nil_iff, List.append_eq_nil_iff,
          Text.rows_eq_nil_iff, Text.rows_eq_nil_iff,
          Text.outputLines_eq_nil_iff, Text.outputLines_eq_nil_iff]
      cases wanted with
      | text s =>
          have hFree := hRow s rfl
          unfold judge
          dsimp only
          rw [List.any_append, List.any_append,
            Text.any_rows_eq_any_outputLines hFree,
            Text.any_rows_eq_any_outputLines hFree]
      | _ =>
          unfold judge
          dsimp only
          rw [hEmpty]

end Verdict

end Whittle

------------------------------------------------------------
-- Endings
------------------------------------------------------------

namespace Whittle

/- How a process ends: by itself with a code, or by a signal. -/
inductive ProcessEnding where
| exited (code : Nat)
| killed (signal : Nat) (isSignal : 0 < signal)

namespace ProcessEnding

def status : ProcessEnding → Int
  | exited code => code
  | killed signal _ => -signal

/- The code that a server reports of a child. -/
def reported : ProcessEnding → Nat
  | exited code => code
  | killed signal _ => 128 + signal

/- A status stands for the code that a server reports. -/
theorem exitCode_status
    (e : ProcessEnding) :
    exitCode e.status = e.reported := by
  unfold exitCode
  cases e with
  | exited code =>
      have hNot : ¬ (exited code).status < 0 := by
        simp only [status]
        omega
      rw [if_neg hNot]
      rfl
  | killed signal isSignal =>
      have hNegative : (killed signal isSignal).status < 0 := by
        simp only [status]
        omega
      rw [if_pos hNegative]
      simp only [status, reported]
      omega

end ProcessEnding

end Whittle

------------------------------------------------------------
-- Two Ways To Ask
------------------------------------------------------------

namespace Whittle

namespace CommandCheck

variable {κ : Type}

/- Without a server, the command ends like this with these texts. -/
structure RunsAs
    (r : Runner κ)
    (c : CheckedCommand)
    (m : Memory κ)
    (v : View)
    (e : ProcessEnding)
    (child : Child) : Prop where
  hasNoServer : m.server = none
  run_eq :
    (r.run m.runner c.line v).1 =
      .ok ⟨e.status, child.out, child.err⟩

/-
  With a server, which has been started and has run any number
  of children, the next child ends like this with these texts.
-/
structure IsServedAs
    (m : Memory κ)
    (v : View)
    (e : ProcessEnding)
    (child : Child) : Prop where
  hasServer :
    ∃ (s : ServerSession) (resume : Disk → Process),
      m.server = some s ∧
        s.Reached (some resume) ∧
          (resume v.disk).Frames child.out child.err child.reply
  code_eq : child.code = e.reported

variable {r : Runner κ} {c : CheckedCommand}
variable {plain served : Memory κ} {v : View}
variable {e : ProcessEnding} {child : Child}

theorem RunsAs.spawn_fst
    (hRuns : RunsAs r c plain v e child) :
    (spawn r c plain v).1 =
      .ok ⟨e.reported, Text.rows child.out,
        Text.rows child.err⟩ := by
  unfold spawn
  rw [hRuns.hasNoServer]
  dsimp only
  rw [hRuns.run_eq, ← e.exitCode_status]
  rfl

theorem IsServedAs.spawn_fst
    (hServed : IsServedAs served v e child) :
    (spawn r c served v).1 =
      .ok ⟨e.reported, child.out.outputLines,
        child.err.outputLines⟩ := by
  rcases hServed with
    ⟨⟨s, resume, hServer, hReached, hFrames⟩, hCode⟩
  rcases hReached.inStep with ⟨n, rfl⟩
  unfold spawn
  rw [hServer]
  dsimp only
  rw [ServerSession.runChild_frame hFrames, ← hCode]
  rfl

/-
  Without a server a command gives the code of its ending and
  the rows of its texts.  With a server it gives the same code
  and the lines that have been sent.  Both are judged alike.
-/
theorem spawn_agrees
    (hRuns : RunsAs r c plain v e child)
    (hServed : IsServedAs served v e child) :
    let o : Outputs :=
      ⟨e.reported, Text.rows child.out, Text.rows child.err⟩
    let o' : Outputs :=
      ⟨e.reported, child.out.outputLines, child.err.outputLines⟩
    (spawn r c plain v).1 = .ok o ∧
      (spawn r c served v).1 = .ok o' ∧
        ∀ verdict : Verdict,
          verdict.WantsOneRow →
            verdict.judge o = verdict.judge o' := by
  refine ⟨hRuns.spawn_fst, hServed.spawn_fst, ?_⟩
  intro verdict hRow
  exact Verdict.judge_eq_judge hRow e.reported child.out child.err

/- A runner whose command is killed after its message. -/
def failingRunner : Runner Unit where
  initial := ()
  run := fun _ _ _ => (.ok ⟨-11, [], "c\x0Cd\n".toList⟩, ())
  compile := .ok ""
  serve := fun _ _ _ => .error .wrongKind
  environment := []

/- Nothing to look at. -/
def emptyView : View :=
  ⟨.empty, [], fun _ => .ok true⟩

/- A check without a server. -/
def plainMemory : Memory Unit :=
  ⟨(), true, none, 0, 0⟩

/- A check with a server that has run one child. -/
def servedMemory : Memory Unit :=
  ⟨(), true,
    some (.inStep (Process.reporting [.failing]) 1), 1, 0⟩

/- The second child of a server, and the same command without it. -/
theorem spawn_agrees_failing :
    let o : Outputs := ⟨139, [], ["c".toList, "d".toList]⟩
    let o' : Outputs := ⟨139, [], ["c\x0Cd".toList]⟩
    (spawn failingRunner default plainMemory emptyView).1 = .ok o ∧
      (spawn failingRunner default servedMemory emptyView).1 =
        .ok o' ∧
      (Verdict.message (.text "d")).judge o =
        (Verdict.message (.text "d")).judge o' := by
  have hRuns : RunsAs failingRunner default plainMemory emptyView
      (.killed 11 (by decide)) .failing :=
    ⟨rfl, rfl⟩
  have hServes : Serves
      (Process.reporting [.printing, .failing])
      [(.empty, .printing)]
      (Process.reporting [.failing]) :=
    .request ⟨rfl, rfl⟩ (.done _)
  have hReached :
      (ServerSession.inStep (Process.reporting [.failing]) 1).Reached
        (Process.reporting [.failing]) := by
    refine ⟨.writing (frame [] "INIT".toList) (frame [] [])
      (Process.reporting [.printing, .failing]),
      [(.empty, .printing)], ⟨rfl, rfl⟩, hServes, ?_⟩
    rw [ServerSession.start_of_greets ⟨rfl, rfl⟩]
    exact (congrArg Prod.snd
      (ServerSession.runChildren_eq hServes 0)).symm
  have hServed : IsServedAs servedMemory emptyView
      (.killed 11 (by decide)) .failing :=
    ⟨⟨_, _, rfl, hReached, ⟨rfl, rfl⟩⟩, by decide⟩
  obtain ⟨hPlain, hServer, hJudge⟩ := spawn_agrees hRuns hServed
  refine ⟨hPlain, hServer, hJudge _ ?_⟩
  intro s hText c hc
  cases hText
  have hChar : c = 'd' := by simpa using hc
  rw [hChar]
  decide

/- A started check says the same with and without a server. -/
theorem ask_eq_ask
    (hRuns : RunsAs r c plain v e child)
    (hServed : IsServedAs served v e child)
    (hRow : c.verdict.WantsOneRow)
    (hPlain : plain.isStarted = true)
    (hStarted : served.isStarted = true) :
    (ask r c plain v).1 = (ask r c served v).1 := by
  have hSpawn := hRuns.spawn_fst
  have hSpawn' := hServed.spawn_fst (r := r) (c := c)
  have hJudge :=
    Verdict.judge_eq_judge hRow e.reported child.out child.err
  unfold ask
  rw [if_pos hPlain, if_pos hStarted]
  cases v.areParseable () with
  | error f => rfl
  | ok areParseable =>
      cases areParseable with
      | false => rfl
      | true =>
          dsimp only
          generalize spawn r c plain v = x at hSpawn ⊢
          generalize spawn r c served v = x' at hSpawn' ⊢
          rcases x with ⟨result, m⟩
          rcases x' with ⟨result', m'⟩
          subst hSpawn hSpawn'
          dsimp only
          rw [hJudge]
          cases c.verdict.judge _ with
          | error f => rfl
          | ok isMet => cases isMet <;> rfl

end CommandCheck

end Whittle
