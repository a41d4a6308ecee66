import Whittle.Settings.Arguments
import Whittle.Settings.Reading

/-
  Settings from a command line.

  Key definitions include:
    * `expandList`
    * `Settings.ofChoices`

  What the command line chooses takes the place of what the
  settings file says.
-/

------------------------------------------------------------
-- Lists Of Files
------------------------------------------------------------

namespace Whittle

/- The names in a list: its lines that are not blank. -/
def namesOf
    (t : Text) : List String :=
  ((Text.rows t).map Text.strip |>.filter (!·.isEmpty)).map
    String.ofList

/- The names that a value stands for. -/
def expandValue
    (codecs : Codecs)
    (d : Disk)
    (value : String) : Except Failure (List String) :=
  match value.toList with
  | '@' :: rest =>
      let path := FilePath.ofText (String.ofList rest)
      match d.read path with
      | .error e => .error (.settings (.unreadableList path e))
      | .ok bs =>
          match codecs.preferred.decode? bs with
          | none => .error .undecodable
          | some t => .ok (namesOf t.unifyLineEnds)
  | _ => .ok [value]

/- The names that some values stand for, in order. -/
def expandList
    (codecs : Codecs)
    (d : Disk)
    (values : List String) : Except Failure (List String) :=
  (values.mapM (expandValue codecs d)).map List.flatten

end Whittle

------------------------------------------------------------
-- Choices
------------------------------------------------------------

namespace Whittle

/- The value of the last choice of a kind. -/
def lastChoice?
    (choice : Choice)
    (choices : List (Choice × Value)) : Option Value :=
  choices.reverse.lookup choice

/- The values of all choices of a kind. -/
def allChoices
    (choice : Choice)
    (choices : List (Choice × Value)) : List String :=
  (choices.filter (·.1 = choice)).map (·.2.display)

namespace Settings

/- The pairs of files that are chosen, if any are. -/
def filesOfChoices
    (codecs : Codecs)
    (d : Disk)
    (choices : List (Choice × Value))
    (fallback : List FilePair) : Except Failure (List FilePair) :=
  let inputs := allChoices .inputFile choices
  let outputs := allChoices .outputFile choices
  if inputs.isEmpty && outputs.isEmpty then
    .ok fallback
  else do
    let inputs ← expandList codecs d inputs
    let outputs ← expandList codecs d outputs
    if inputs.length = outputs.length then
      pure (List.zipWith FilePair.mk inputs outputs)
    else
      throw
        (.settings (.unequalLists inputs.length outputs.length))

/- The settings of a file, if one is chosen. -/
def baseOfChoices
    (reader : SettingsReader)
    (d : Disk)
    (choices : List (Choice × Value)) : Except Failure Settings :=
  match lastChoice? .settingsFile choices with
  | none => .ok {}
  | some path => load reader d (.ofText path.display)

/- The settings that a command line chooses. -/
def ofChoices
    (reader : SettingsReader)
    (d : Disk)
    (choices : List (Choice × Value)) :
    Except Failure Settings := do
  let base ← baseOfChoices reader d choices
  let files ←
    filesOfChoices reader.codecs d choices base.files
  let chosen (choice : Choice) (fallback : Value) : Value :=
    (lastChoice? choice choices).getD fallback
  let check := base.check
  pure
    { language := chosen .language base.language
      charset := chosen .charset base.charset
      validatesNodes := chosen .noValidation base.validatesNodes
      files := files
      strategy :=
        { name := chosen .strategy base.strategy.name
          query := chosen .query base.strategy.query }
      check :=
        { name := chosen .check check.name
          commandLine := chosen .commandLine check.commandLine
          usesServer := chosen .server check.usesServer
          childTimeout := chosen .childTimeout check.childTimeout
          minReturn := chosen .minReturn check.minReturn
          maxReturn := chosen .maxReturn check.maxReturn
          exactReturn := chosen .exactReturn check.exactReturn
          message := chosen .message check.message }
      log :=
        { directory := chosen .logDirectory base.log.directory
          streams := chosen .logStream base.log.streams } }

end Settings

end Whittle
