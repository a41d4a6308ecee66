import Whittle.Disk.Basic
import Whittle.Query.Reader
import Whittle.Value.Basic

/-
  The settings of a run.

  Key definitions include:
    * `Codecs`
    * `FilePair`
    * `StrategySettings`
    * `CheckSettings`
    * `LogSettings`
    * `Settings`
    * `SettingsError`
-/

------------------------------------------------------------
-- Charsets
------------------------------------------------------------

namespace Whittle

/-
  The codecs that there are, by their names, and the one for
  texts of which nothing is said.
-/
structure Codecs where
  named? : String → Option Codec
  preferred : Codec

/-
  What a setting says about the charset.  A name with a zero
  character in it is none.
-/
def Codecs.charset
    (codecs : Codecs)
    (v : Value) : Charset :=
  match v with
  | .null => .known codecs.preferred
  | .text name =>
      if name.toList.contains '\x00' then
        .misnamed
      else
        match codecs.named? name with
        | none => .unknown
        | some codec => .known codec
  | _ => .misnamed

end Whittle

------------------------------------------------------------
-- Settings
------------------------------------------------------------

namespace Whittle

/- An input file and the output file that it is copied to. -/
structure FilePair where
  input : String
  output : String
deriving DecidableEq, Repr, Inhabited

/- Which strategy reduces the files. -/
structure StrategySettings where
  name : Value := .text "greedy"
  query : Value := .null
deriving Repr, Inhabited

/- Which property of the files is to be kept. -/
structure CheckSettings where
  name : Value := .text "exitcode"
  commandLine : Value := .null
  usesServer : Value := .flag false
  childTimeout : Value := .number 1
  minReturn : Value := .number 1
  maxReturn : Value := .null
  exactReturn : Value := .number (-1)
  message : Value := .null
deriving Repr, Inhabited

/- Where the events of a run go. -/
structure LogSettings where
  directory : Value := .null
  streams : Value := .flag false
deriving Repr, Inhabited

/- The settings of a run. -/
structure Settings where
  language : Value := .text "python"
  charset : Value := .text "utf-8"
  validatesNodes : Value := .flag true
  files : List FilePair := []
  strategy : StrategySettings := {}
  check : CheckSettings := {}
  log : LogSettings := {}
deriving Repr, Inhabited

end Whittle

------------------------------------------------------------
-- Errors
------------------------------------------------------------

namespace Whittle

/- Why settings do not describe a run. -/
inductive SettingsError where
| noFiles
| sharedOutputs
| queryMissing
| commandMissing (check : String)
| messageMissing
| timeoutNotPositive
| noMapping
| fileEntry
| noSettingsFile (path : FilePath)
| unreadableList (path : FilePath) (cause : DiskError)
| unequalLists (inputs outputs : Nat)
| unknownLanguage (name : Value) (known : List String)
| unknownStrategy (name : Value)
| unknownCheck (name : Value)
| invalidQuery (cause : QueryError)
| cannotCopy (source target : FilePath) (cause : DiskError)
| unparsableInputs
| cannotRun (command : Value) (reason : String)
deriving Repr

namespace SettingsError

/- A name that is not among the known ones. -/
def unknown
    (noun : String)
    (name : Value)
    (known : List String) : String :=
  "Unknown " ++ noun ++ " " ++ String.ofList name.quoted ++
    "; supported: " ++ ", ".intercalate known

/- The wording of an error. -/
def message : SettingsError → String
  | noFiles => "At least one input file is required."
  | sharedOutputs => "Output files must be distinct."
  | queryMissing =>
      "The query strategy requires a query expression."
  | commandMissing check =>
      "The " ++ check ++ " invariant requires a command line."
  | messageMissing =>
      "The message invariant requires a message to look for."
  | timeoutNotPositive =>
      "Fork server child timeout must be positive."
  | noMapping =>
      "Config file must contain a mapping at the top level."
  | fileEntry =>
      "Each file entry must be a mapping with an 'input' key."
  | noSettingsFile path =>
      "Configuration file " ++ path.text ++ " does not exist."
  | unreadableList path cause =>
      "Cannot read file list " ++ path.text ++ ": " ++
        cause.message
  | unequalLists inputs outputs =>
      "Input and output file lists must have the same length (" ++
        toString inputs ++ " inputs, " ++ toString outputs ++
        " outputs)."
  | unknownLanguage name known => unknown "language" name known
  | unknownStrategy name =>
      unknown "strategy" name ["greedy", "query"]
  | unknownCheck name =>
      unknown "invariant" name ["dummy", "exitcode", "message"]
  | invalidQuery cause =>
      "Invalid query expression: " ++ cause.message
  | cannotCopy source target cause =>
      "Cannot copy " ++ source.text ++ " to " ++ target.text ++
        ": " ++ cause.message
  | unparsableInputs => "Cannot parse the original input files."
  | cannotRun command reason =>
      "Cannot run " ++ String.ofList command.quoted ++ ": " ++
        reason

end SettingsError

end Whittle
