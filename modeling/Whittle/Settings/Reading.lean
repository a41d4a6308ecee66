import Whittle.Failure

/-
  Reading settings from values and from files, and checking
  that they go together.

  Key definitions include:
    * `SettingsReader`
    * `Settings.ofValue`
    * `Settings.load`
    * `Settings.validate`
-/

------------------------------------------------------------
-- Sections
------------------------------------------------------------

namespace Whittle

/- The entries of a section, which has to be a mapping. -/
def sectionEntries
    (key : String)
    (entries : List (Value × Value)) :
    Except Failure (List (Value × Value)) :=
  match Value.entry? key entries with
  | none => .ok []
  | some (.mapping inner) => .ok inner
  | some _ => .error .notSupported

/- The value of a setting, or the value it has otherwise. -/
def settingOr
    (key : String)
    (fallback : Value)
    (entries : List (Value × Value)) : Value :=
  (Value.entry? key entries).getD fallback

def StrategySettings.ofEntries
    (es : List (Value × Value)) : StrategySettings :=
  let fallback : StrategySettings := {}
  { name := settingOr "name" fallback.name es
    query := settingOr "query" fallback.query es }

def CheckSettings.ofEntries
    (es : List (Value × Value)) : CheckSettings :=
  let fallback : CheckSettings := {}
  { name := settingOr "name" fallback.name es
    commandLine := settingOr "command_line" fallback.commandLine es
    usesServer := settingOr "forkserver" fallback.usesServer es
    childTimeout :=
      settingOr "forkserver_child_timeout" fallback.childTimeout es
    minReturn := settingOr "min_return" fallback.minReturn es
    maxReturn := settingOr "max_return" fallback.maxReturn es
    exactReturn := settingOr "exact_return" fallback.exactReturn es
    message := settingOr "message" fallback.message es }

def LogSettings.ofEntries
    (es : List (Value × Value)) : LogSettings :=
  let fallback : LogSettings := {}
  { directory := settingOr "dir" fallback.directory es
    streams := settingOr "stream" fallback.streams es }

end Whittle

------------------------------------------------------------
-- Files
------------------------------------------------------------

namespace Whittle

/- The pair of files that an entry names. -/
def FilePair.ofValue
    (v : Value) : Except Failure FilePair :=
  match v with
  | .mapping es =>
      match Value.entry? "input" es with
      | none => .error (.settings .fileEntry)
      | some input =>
          .ok
            { input := input.display
              output := (settingOr "output" input es).display }
  | _ => .error (.settings .fileEntry)

/-
  The pairs of files that a value lists.  A value that counts
  as false lists none.  The parts of a text, the keys of a
  mapping and the like are no proper entries.
-/
def pairsOfValue
    (v : Value) : Except Failure (List FilePair) :=
  if v.isTrue then
    match v with
    | .sequence items => items.mapM FilePair.ofValue
    | .text _ => .error (.settings .fileEntry)
    | .bytes _ => .error (.settings .fileEntry)
    | .mapping _ => .error (.settings .fileEntry)
    | .other v =>
        if v.hasItems then
          .error (.settings .fileEntry)
        else
          .error .wrongKind
    | _ => .error .wrongKind
  else
    .ok []

end Whittle

------------------------------------------------------------
-- Settings
------------------------------------------------------------

namespace Whittle

/-
  What settings are read with: the codecs, and the value that
  a text in YAML writes, if it writes one.
-/
structure SettingsReader where
  codecs : Codecs
  document? : Text → Option Value

namespace Settings

/- The settings that a mapping writes. -/
def ofEntries
    (es : List (Value × Value)) : Except Failure Settings := do
  let strategy ← sectionEntries "strategy" es
  let check ← sectionEntries "invariant" es
  let log ← sectionEntries "logging" es
  let files ← pairsOfValue (settingOr "files" .null es)
  let fallback : Settings := {}
  pure
    { language := settingOr "language" fallback.language es
      charset := settingOr "charset" fallback.charset es
      validatesNodes :=
        settingOr "validate_nodes" fallback.validatesNodes es
      files := files
      strategy := .ofEntries strategy
      check := .ofEntries check
      log := .ofEntries log }

/- The settings that a value writes. -/
def ofValue
    (v : Value) : Except Failure Settings :=
  match v with
  | .mapping es => ofEntries es
  | _ => .error .notSupported

/-
  The settings that the value of a document writes.  A value
  that counts as false stands for an empty mapping.
-/
def ofDocument
    (v : Value) : Except Failure Settings :=
  match v with
  | .mapping es => ofEntries es
  | v =>
      if v.isTrue then
        .error (.settings .noMapping)
      else
        ofEntries []

/- The settings that a file holds. -/
def load
    (reader : SettingsReader)
    (d : Disk)
    (p : FilePath) : Except Failure Settings :=
  if d.contains p then
    match d.read p with
    | .error e => .error (.disk e)
    | .ok bs =>
        match reader.codecs.preferred.decode? bs with
        | none => .error .undecodable
        | some t =>
            match reader.document? t.unifyLineEnds with
            | none => .error .unreadable
            | some v => ofDocument v
  else
    .error (.settings (.noSettingsFile p))

end Settings

end Whittle

------------------------------------------------------------
-- Validation
------------------------------------------------------------

namespace Whittle

namespace Settings

/- Fail with an error if a condition holds. -/
def refuseIf
    (condition : Bool)
    (e : SettingsError) : Except Failure Unit :=
  if condition then .error (.settings e) else .ok ()

/- The name of a check, which has to be a scalar. -/
def checkName
    (s : Settings) : Except Failure String :=
  match s.check.name with
  | .text name => .ok name
  | v => if v.isScalar then .ok "" else .error .wrongKind

/- The timeout has to be a positive number. -/
def validateTimeout
    (v : Value) : Except Failure Unit :=
  match v.amount? with
  | none => .error .wrongKind
  | some a =>
      refuseIf (a.isAtMost (.ofInt 0)) .timeoutNotPositive

/-
  The options go together, as far as that does not depend on
  the files.
-/
def validate
    (s : Settings) : Except Failure Unit := do
  refuseIf s.files.isEmpty .noFiles
  let outputs := s.files.map (·.output)
  refuseIf (outputs.eraseDups.length ≠ outputs.length)
    .sharedOutputs
  refuseIf
    (s.strategy.name.isText "query" && !s.strategy.query.isTrue)
    .queryMissing
  let check ← s.checkName
  refuseIf
    ((check = "exitcode" || check = "message") &&
      !s.check.commandLine.isTrue)
    (.commandMissing check)
  refuseIf (check = "message" && !s.check.message.isTrue)
    .messageMissing
  validateTimeout s.check.childTimeout

end Settings

end Whittle
