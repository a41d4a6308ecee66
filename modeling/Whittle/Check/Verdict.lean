import Whittle.Failure
import Whittle.Settings.Basic

/-
  What a check expects of a command.

  Key definitions include:
    * `Outputs`
    * `Verdict`
    * `Verdict.judge`
    * `Verdict.describe`
    * `CheckChoice`
    * `CheckSettings.choose`
-/

------------------------------------------------------------
-- Verdicts
------------------------------------------------------------

namespace Whittle

/- What a command has left: its exit code and the rows it wrote. -/
structure Outputs where
  code : Int
  out : List Text
  err : List Text
deriving DecidableEq, Repr, Inhabited

/-
  What is expected of a command: an exit code between two
  bounds, the upper of which may be missing, or a message in
  a row of its output.
-/
inductive Verdict where
| exitCode (least greatest : Value)
| message (wanted : Value)
deriving Repr, Inhabited

namespace Verdict

/- A code lies below a bound. -/
def isBelow
    (code : Int)
    (bound : Value) : Except Failure Bool :=
  match bound.amount? with
  | some a => .ok ((Amount.ofInt code).isBelow a)
  | none => .error .wrongKind

/- A code lies at a bound or below it. -/
def isAtMost
    (code : Int)
    (bound : Value) : Except Failure Bool :=
  match bound.amount? with
  | some a => .ok ((Amount.ofInt code).isAtMost a)
  | none => .error .wrongKind

/- The expectation is met. -/
def judge
    (v : Verdict)
    (o : Outputs) : Except Failure Bool :=
  match v with
  | exitCode least greatest =>
      match isBelow o.code least, greatest with
      | .error e, _ => .error e
      | .ok true, _ => .ok false
      | .ok false, .null => .ok true
      | .ok false, greatest => isAtMost o.code greatest
  | message wanted =>
      match wanted with
      | .text s =>
          .ok ((o.out ++ o.err).any (isWithin s.toList))
      | _ =>
          if (o.out ++ o.err).isEmpty then
            .ok false
          else
            .error .wrongKind

/- Two bounds are the same. -/
def areSame
    (v w : Value) : Bool :=
  match v.amount?, w.amount? with
  | some a, some b => a.isSame b
  | none, none => v.quoted = w.quoted
  | _, _ => false

/- An expectation in words. -/
def describe : Verdict → String
  | exitCode least greatest =>
      if areSame least greatest then
        "Exits with code = " ++ least.display
      else
        match greatest with
        | .null => "Exits with code >= " ++ least.display
        | greatest =>
            "Exits with code from " ++ least.display ++ " to " ++
              greatest.display ++ ", inclusive"
  | message wanted => "Prints " ++ String.ofList wanted.quoted

end Verdict

end Whittle

------------------------------------------------------------
-- Choices
------------------------------------------------------------

namespace Whittle

/- A command that is run for each check. -/
structure CheckedCommand where
  line : Value
  usesServer : Bool
  childTimeout : Value
  verdict : Verdict
deriving Repr, Inhabited

/- The checks that settings may name. -/
inductive CheckChoice where
| always
| command (c : CheckedCommand)
deriving Repr, Inhabited

namespace CheckSettings

/- A value that counts as false stands for the empty text. -/
def orEmpty
    (v : Value) : Value :=
  if v.isTrue then v else .text ""

/- The command of the settings with an expectation. -/
def commandWith
    (s : CheckSettings)
    (v : Verdict) : CheckChoice :=
  .command
    { line := orEmpty s.commandLine
      usesServer := s.usesServer.isTrue
      childTimeout := s.childTimeout
      verdict := v }

/-
  The expected exit codes: an exact one that is not negative
  takes the place of both bounds.
-/
def exitCodes
    (s : CheckSettings) : Except Failure Verdict :=
  match s.exactReturn.amount? with
  | none => .error .wrongKind
  | some a =>
      .ok
        (if (Amount.ofInt 0).isAtMost a then
          .exitCode s.exactReturn s.exactReturn
        else
          .exitCode s.minReturn s.maxReturn)

/- The check that settings name. -/
def choose
    (s : CheckSettings) : Except Failure CheckChoice :=
  if s.name.isText "dummy" then
    .ok .always
  else if s.name.isText "exitcode" then
    s.exitCodes.map s.commandWith
  else if s.name.isText "message" then
    .ok (s.commandWith (.message (orEmpty s.message)))
  else if s.name.isScalar then
    .error (.settings (.unknownCheck s.name))
  else
    .error .wrongKind

end CheckSettings

end Whittle
