import Whittle.Session.Basic

/-
  Trials: changed files that are accepted if the check holds.

  Key definitions include:
    * `Session.tryCommit`
    * `Session.tryCleanup`
    * `Session.tryRemove`
    * `Session.tryVariants`
    * `Session.forceRemove`
    * `Session.carryOut`
-/

------------------------------------------------------------
-- Committing
------------------------------------------------------------

namespace Whittle

namespace Session

variable {σ τ : Type}

/- Ask the check about the present contents of the files. -/
def askCheck
    (u : Setup σ τ)
    (contents : List Bytes) : Work (Session σ τ) Bool :=
  fun s =>
    let (answer, check) := u.check.ask s.check (view u s)
    (answer,
      { s with
        check := check
        trail := .asked contents answer.toOption :: s.trail })

/-
  Accept the present contents of all files if they are not
  known yet, the check holds and every file can be parsed.
-/
def tryCommit
    (u : Setup σ τ) : Work (Session σ τ) Bool := do
  let contents ← onFiles Workspace.contents
  match Workspace.key contents with
  | .error e => throw e
  | .ok key =>
      let s ← get
      if s.known.contains key then
        modify fun s => { s with skipped := s.skipped + 1 }
        note (.skipped contents)
        pure false
      else
        modify fun s =>
          { s with known := key :: s.known, trials := s.trials + 1 }
        let isSatisfied ← askCheck u contents
        let size ← onFiles Workspace.size
        logEvent u "trial.result"
          [("trial", count (s.trials + 1)),
            ("satisfied", .flag isSatisfied), ("size", count size)]
        if isSatisfied then
          if ← acceptAll u then
            let s ← get
            logEvent u "commit"
              [("size", count s.totalSize),
                ("nodes", count s.totalNodeCount)]
            pure true
          else
            pure false
        else
          pure false

/- Whether a trial counts as progress. -/
def progressIf
    (isProgress : Bool) : Outcome :=
  if isProgress then .progressed else .noProgress

end Session

end Whittle

------------------------------------------------------------
-- Cleaning Up
------------------------------------------------------------

namespace Whittle

namespace Session

variable {σ τ : Type}

/-
  Trim the gaps of all files and try to accept the result.
  Only a strict cleanup counts as progress.
-/
def tryCleanup
    (u : Setup σ τ)
    (isStrict : Bool) : Work (Session σ τ) Outcome := do
  onFiles (Workspace.forEach (Scratch.writeCleaned u.rules))
  let isCommitted ← tryCommit u
  pure (progressIf (isCommitted && isStrict))

end Session

end Whittle

------------------------------------------------------------
-- Removing Nodes
------------------------------------------------------------

namespace Whittle

namespace Session

variable {σ τ : Type}

/- The lines that say where nodes of a file stand. -/
def explainAll
    (s : Scratch)
    (nodes : NodeTable) : Except TreeError (List String) :=
  match s.root with
  | none => .ok []
  | some p =>
      (NodeSet.ofList nodes.toList).mapM fun n =>
        (p.tree.explain n.index).map fun place =>
          s.path.text ++ ":" ++ place

/- Say which nodes could not be cut, and end the reduction. -/
def abortTrimming
    (s : Scratch)
    (nodes : NodeTable)
    (cause : RegionError) : Work Host Unit := do
  Host.warn
    "An error occurred while cutting off the following nodes:"
  match explainAll s nodes with
  | .error e => throw (.tree e)
  | .ok lines =>
      lines.forM Host.warn
      throw (.aborted s.path cause)

/-
  Cut the nodes that belong to each file.  The nodes that
  belong to none are returned.
-/
def trimEach
    (r : SourceRules) :
    List Scratch → NodeTable →
      Work Host NodeTable
  | [], nodes => pure nodes
  | s :: rest, nodes => do
      let current := nodes.filter fun n => s.nodes.contains n
      tryCatch (s.writeTrimmed r current) fun e =>
        match e with
        | .regions cause => abortTrimming s current cause
        | e => throw e
      trimEach r rest
        (nodes.filter fun n => !s.nodes.contains n)

/- Cut nodes, and warn of those that belong to no file. -/
def writeTrimmed
    (u : Setup σ τ)
    (nodes : List NodeId) : Work (Session σ τ) Unit := do
  let s ← get
  let unknown ←
    onHost
      (trimEach u.rules s.workspace.scratches (.ofList nodes))
  if !unknown.isEmpty then
    onHost
      (Host.warn
        "WARNING: strategy tries to remove unknown nodes!")
    logEvent u "strategy.unknown_nodes"
      [("count", count unknown.size)]

/- Cut nodes, if there are any, and try to accept the result. -/
def tryRemove
    (u : Setup σ τ)
    (nodes : List NodeId) : Work (Session σ τ) Outcome := do
  if nodes.isEmpty then
    pure .noProgress
  else
    writeTrimmed u nodes
    let isCommitted ← tryCommit u
    pure (progressIf isCommitted)

/- Try to cut one of several sets of nodes. -/
def tryVariants
    (u : Setup σ τ) :
    List (List NodeId) → Work (Session σ τ) Outcome
  | [] => pure .noProgress
  | nodes :: rest => do
      let outcome ← tryRemove u nodes
      if outcome = .noProgress then
        tryVariants u rest
      else
        pure outcome

/-
  Cut nodes without a check.  What cannot be parsed is not
  accepted.
-/
def forceRemove
    (u : Setup σ τ)
    (nodes : List NodeId) : Work (Session σ τ) Outcome := do
  writeTrimmed u nodes
  note (.forced (← onFiles Workspace.contents))
  let _ ← acceptAll u
  pure .forcedStop

end Session

end Whittle

------------------------------------------------------------
-- Plans
------------------------------------------------------------

namespace Whittle

namespace Session

variable {σ τ : Type}

/- Do what a plan of the strategy asks for. -/
def carryOut
    (u : Setup σ τ) : Plan τ → Work (Session σ τ) Outcome
  | .done outcome => pure outcome
  | .remember memory rest => do
      modify fun s => { s with strategy := memory }
      carryOut u rest
  | .cleanup next => do
      let outcome ← tryCleanup u true
      carryOut u (next outcome)
  | .remove nodes next => do
      let outcome ← tryRemove u nodes
      carryOut u (next outcome)
  | .offer variants next => do
      let outcome ← tryVariants u variants
      carryOut u (next outcome)
  | .force nodes next => do
      let outcome ← forceRemove u nodes
      carryOut u (next outcome)
  | .giveUp message => throw (.givenUp message)

/- One pass of the strategy over the accepted trees. -/
def singlePass
    (u : Setup σ τ) : Work (Session σ τ) Outcome := do
  let s ← get
  carryOut u
    (u.strategy.pass s.strategy (.ofParsed s.roots)
      (s.roots.map (·.tree)))

end Session

end Whittle
