import Whittle.Edit.Region
import Whittle.Settings.Basic
import Whittle.Tree.Basic

/-
  The ways in which a run may fail.

  Key definitions include:
    * `ServerError`
    * `Failure`
    * `Failure.message?`
-/

------------------------------------------------------------
-- Servers
------------------------------------------------------------

namespace Whittle

/- Why a fork server cannot be used. -/
inductive ServerError where
| cannotCompile (reason : String)
| compilerFailed (status : Int) (output : String)
| invalidReply (stdout stderr : Option String)
| notRunning
| terminated
deriving DecidableEq, Repr

namespace ServerError

/- A reply that may be missing. -/
def reply
    (r : Option String) : String :=
  r.getD "None"

/- The wording of an error. -/
def message : ServerError → String
  | cannotCompile reason =>
      "Cannot compile fork server preloaded object: " ++ reason
  | compilerFailed status output =>
      "Cannot compile fork server preloaded object: " ++
        "compiler exited with code " ++ toString status ++ "\n" ++
        output
  | invalidReply stdout stderr =>
      "Invalid fork server reply: stdout[" ++ reply stdout ++
        "], stderr[" ++ reply stderr ++ "]"
  | notRunning => "Fork server is not running."
  | terminated => "Fork server terminated unexpectedly"

end ServerError

end Whittle

------------------------------------------------------------
-- Failures
------------------------------------------------------------

namespace Whittle

/-
  Why an operation of a run fails.
    * `aborted` : nodes could not be cut out of a file.
    * `outOfText` : a node lies outside of its text.
    * `wrongKind` : a setting has a value of a wrong kind.
    * `notSupported` : something is asked of a value, or of a
      check that has not started, that it cannot do.
    * `unmet` : nodes are cut that are not in the tree.
    * `givenUp` : a strategy or a check has given up.
    * `unfinished` : the passes of a strategy do not end.
-/
inductive Failure where
| settings (cause : SettingsError)
| aborted (path : FilePath) (cause : RegionError)
| server (cause : ServerError)
| disk (cause : DiskError)
| regions (cause : RegionError)
| tree (cause : TreeError)
| outOfText
| unparsable
| unreadable
| unknownCharset
| undecodable
| unencodable
| wrongKind
| notSupported
| unmet
| givenUp (message : String)
| unfinished
deriving Repr

namespace Failure

/- The wording of a failure that has one. -/
def message? : Failure → Option String
  | settings cause => some cause.message
  | aborted path cause =>
      some
        ("Cannot cut nodes from " ++ path.text ++ ": " ++
          cause.message)
  | server cause => some cause.message
  | disk cause => some cause.message
  | regions cause => some cause.message
  | tree cause => some cause.message
  | givenUp message => some message
  | _ => none

end Failure

end Whittle
