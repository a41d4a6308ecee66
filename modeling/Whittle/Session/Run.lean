import Whittle.Session.Trial

/-
  A whole reduction.

  Key definitions include:
    * `Report`
    * `Session.turn`
    * `Session.passes`
    * `Session.passLoop`
    * `Session.reduce`
    * `Session.run`
-/

------------------------------------------------------------
-- Reports
------------------------------------------------------------

namespace Whittle

/- The result of a reduction. -/
structure Report where
  originalSize : Nat
  originalNodeCount : Nat
  finalSize : Nat
  finalNodeCount : Nat
  passCount : Nat
  isForced : Bool
  check : List (String × Nat)
  strategy : List (String × Nat)
  trials : Nat
  skipped : Nat
deriving DecidableEq, Repr, Inhabited

namespace Report

/- Named numbers as a value. -/
def counts
    (cs : List (String × Nat)) : Value :=
  RunLog.dataValue (cs.map fun (k, n) => (k, .number n))

/- A report as it is stored in the log. -/
def value
    (r : Report) : Value :=
  RunLog.dataValue
    [("original_size", .number r.originalSize),
      ("original_node_count", .number r.originalNodeCount),
      ("final_size", .number r.finalSize),
      ("final_node_count", .number r.finalNodeCount),
      ("passes", .number r.passCount),
      ("forced_stop", .flag r.isForced),
      ("invariant", counts r.check),
      ("strategy", counts r.strategy),
      ("minimizer",
        counts
          [("trials", r.trials), ("skipped_trials", r.skipped)])]

end Report

end Whittle

------------------------------------------------------------
-- Statistics
------------------------------------------------------------

namespace Whittle

namespace Session

variable {σ τ : Type}

/- How many hundredths of a whole a part is, rounded down. -/
def percentage
    (part whole : Int) : Int :=
  if whole = 0 then 100 else (part * 100).fdiv whole

/- The line that says how far a reduction has come. -/
def progressLine
    (moment : String)
    (originalSize originalNodeCount : Int)
    (s : Session σ τ) : String :=
  let size := s.totalSize
  let nodes := s.totalNodeCount
  moment ++ ": size " ++ toString size ++ " bytes (" ++
    toString (percentage size originalSize) ++ "%), " ++
    toString nodes ++ " nodes (" ++
    toString (percentage nodes originalNodeCount) ++ "%)"

/- Print how far a reduction has come. -/
def printProgress
    (moment : String)
    (originalSize originalNodeCount : Int) :
    Work (Session σ τ) Unit := do
  let s ← get
  onHost
    (Host.print
      (progressLine moment originalSize originalNodeCount s))

end Session

end Whittle

------------------------------------------------------------
-- Passes
------------------------------------------------------------

namespace Whittle

namespace Session

variable {σ τ : Type}

/- Every so many passes there is a cleanup in their place. -/
def cleanupPeriod : Nat := 10

/- There is a cleanup in the place of the pass of a number. -/
def isCleanup
    (number : Nat) : Bool :=
  number % cleanupPeriod == 0

/- The pass of a number, or the cleanup in its place. -/
def passOrCleanup
    (u : Setup σ τ)
    (number : Nat) : Work (Session σ τ) Outcome :=
  if isCleanup number then tryCleanup u true else singlePass u

/-
  The pass of a number, or the cleanup in its place, with
  what is logged and printed after it.
-/
def turn
    (u : Setup σ τ)
    (originalSize originalNodeCount : Nat)
    (number : Nat) : Work (Session σ τ) Outcome := do
  let outcome ← passOrCleanup u number
  let s ← get
  logEvent u "pass.result"
    [("pass_number", count number),
      ("cleanup", .flag (isCleanup number)),
      ("outcome", .text outcome.text),
      ("size", count s.totalSize)]
  let label :=
    if isCleanup number then " (white-space cleanup)" else ""
  printProgress ("After pass #" ++ toString number ++ label)
    originalSize originalNodeCount
  pure outcome

/-
  Passes until one of them does not make progress.  Cleanups
  do not end the passes.  `before` counts the passes so far.
  The result is the number of passes, and whether the last
  one was forced to be the last.
-/
def passes
    (u : Setup σ τ)
    (originalSize originalNodeCount : Nat) :
    (fuel : Nat) → (before : Nat) →
      Work (Session σ τ) (Nat × Bool)
  | 0, _ => throw .unfinished
  | fuel + 1, before => do
      let number := before + 1
      let outcome ← turn u originalSize originalNodeCount number
      if outcome = .forcedStop then
        pure (number, true)
      else if isCleanup number || outcome = .progressed then
        passes u originalSize originalNodeCount fuel number
      else
        pure (number, false)

/-
  More passes than a reduction can have in which every pass
  with progress makes the files smaller, or replaces carriage
  returns.
-/
def passBound
    (s : Session σ τ) : Nat :=
  let size :=
    total
      (s.workspace.snapshots.map fun bs =>
        bs.length + bs.count 13)
  cleanupPeriod * (size + 2)

end Session

end Whittle

------------------------------------------------------------
-- Reductions
------------------------------------------------------------

namespace Whittle

namespace Session

variable {σ τ : Type}

/-
  Drop the blank lines of the file with some number, with the
  accepted contents in all others, and try to accept that.
-/
def tryStrip
    (u : Setup σ τ)
    (i : Nat) : Work (Session σ τ) Bool := do
  onFiles Workspace.rollBackAll
  let s ← get
  match s.workspace.scratches[i]? with
  | none => pure ()
  | some f => onHost (f.writeWithoutBlankLines u.rules)
  tryCommit u

/-
  Drop the blank lines of the files with these numbers, one
  file at a time.
-/
def stripEach
    (u : Setup σ τ) :
    List Nat → Work (Session σ τ) Unit
  | [] => pure ()
  | i :: rest => do
      let _ ← tryStrip u i
      stripEach u rest

/- What is done after the last pass, unless it was forced. -/
def finish
    (u : Setup σ τ)
    (originalSize originalNodeCount : Nat) :
    Work (Session σ τ) Unit := do
  let _ ← tryCleanup u false
  printProgress "After final white-space cleanup"
    originalSize originalNodeCount
  let s ← get
  stripEach u (List.range s.workspace.scratches.length)
  printProgress "After blank line clean up"
    originalSize originalNodeCount
  onFiles Workspace.rollBackAll

/- The result of a reduction after its last pass. -/
def report
    (u : Setup σ τ)
    (originalSize originalNodeCount : Nat)
    (passCount : Nat)
    (isForced : Bool)
    (s : Session σ τ) : Report :=
  { originalSize := originalSize
    originalNodeCount := originalNodeCount
    finalSize := s.totalSize
    finalNodeCount := s.totalNodeCount
    passCount := passCount
    isForced := isForced
    check := u.check.statistics s.check
    strategy := u.strategy.statistics s.strategy
    trials := s.trials
    skipped := s.skipped }

/- Print and log the result of a reduction. -/
def publish
    (u : Setup σ τ)
    (r : Report) : Work (Session σ τ) Unit := do
  let s ← get
  onHost ((u.check.summary s.check).forM Host.print)
  onHost ((u.strategy.summary s.strategy).forM Host.print)
  logEvent u "minimizer.finish"
    [("passes", count r.passCount),
      ("forced_stop", .flag r.isForced),
      ("size", count r.finalSize),
      ("nodes", count r.finalNodeCount)]
  let _ ← onHost (u.log.store "statistics" r.value)

/-
  A reduction up to the end of its last pass: a cleanup, and
  then at most `bound` passes.
-/
def passLoop
    (u : Setup σ τ)
    (bound : Nat) : Work (Session σ τ) (Nat × Bool) := do
  let s ← get
  let size := s.totalSize
  let nodes := s.totalNodeCount
  onHost
    (Host.print
      ("Original file(s): " ++ toString size ++ " bytes, " ++
        toString nodes ++ " nodes."))
  let paths :=
    s.workspace.scratches.map fun f => Value.text f.path.text
  logEvent u "minimizer.start"
    [("files", .sequence paths),
      ("invariant", .text u.check.description),
      ("size", count size), ("nodes", count nodes)]
  let _ ← tryCleanup u false
  printProgress "After initial white-space cleanup" size nodes
  passes u size nodes bound 0

/-
  The reduction of files that have been opened, with at most
  `bound` passes.
-/
def reduce
    (u : Setup σ τ)
    (bound : Nat) : Work (Session σ τ) Report := do
  let s ← get
  let size := s.totalSize
  let nodes := s.totalNodeCount
  let (passCount, isForced) ← passLoop u bound
  if !isForced then
    finish u size nodes
  let s ← get
  let r := report u size nodes passCount isForced s
  publish u r
  pure r

end Session

end Whittle

------------------------------------------------------------
-- Runs
------------------------------------------------------------

namespace Whittle

namespace Session

variable {σ τ : Type}

/- Start the check, and print what it has to say. -/
def startCheck
    (u : Setup σ τ) : Work (Session σ τ) Unit := do
  let s ← get
  let (result, check, notices) := u.check.start s.check (view u s)
  set { s with check := check }
  onHost (notices.printed.forM Host.print)
  onHost (notices.warned.forM Host.warn)
  match result with
  | .ok () => pure ()
  | .error e => throw e

/-
  Start the check and reduce.  If that fails the accepted
  contents are restored.
-/
def runOpened
    (u : Setup σ τ)
    (bound : Nat) : Work (Session σ τ) Report :=
  tryCatch
    (do
      startCheck u
      reduce u bound)
    fun e => do
      onFiles Workspace.rollBackAll
      throw e

/-
  Reduce with at most `bound` passes, and close the check and
  the files in the end, whether that fails or not.
-/
def runWithin
    (u : Setup σ τ)
    (bound : Nat) : Work (Session σ τ) Report :=
  fun s =>
    let (result, s) := runOpened u bound s
    (result,
      { s with
        check := u.check.close s.check
        workspace := s.workspace.closeAll })

/- Reduce with as many passes as the files may need. -/
def run
    (u : Setup σ τ) : Work (Session σ τ) Report :=
  fun s => runWithin u (passBound s) s

end Session

end Whittle
