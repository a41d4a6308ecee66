import Whittle.Failure
import Whittle.FrontEnd.Basic
import Whittle.Strategy.Greedy
import Whittle.Strategy.Query

/-
  The language and the strategy that settings name.

  Key definitions include:
    * `FrontEnd.named`
    * `StrategyChoice`
    * `StrategySettings.choose`
-/

------------------------------------------------------------
-- Languages
------------------------------------------------------------

namespace Whittle

/- That none of some languages has the given name. -/
def unknownLanguage
    (languages : List FrontEnd)
    (name : Value) : Failure :=
  let names := languages.map (·.name)
  .settings
    (.unknownLanguage name
      (names.mergeSort fun a b =>
        Text.isAtMost a.toList b.toList))

/-
  The language of a name, whatever the case of its letters.
  Bytes have cases too, but they are no name.
-/
def FrontEnd.named
    (languages : List FrontEnd)
    (name : Value) : Except Failure FrontEnd :=
  match name with
  | .text s =>
      match languages.find? (·.name = s.toLower) with
      | some f => .ok f
      | none => .error (unknownLanguage languages name)
  | .bytes _ => .error (unknownLanguage languages name)
  | _ => .error .notSupported

end Whittle

------------------------------------------------------------
-- Strategies
------------------------------------------------------------

namespace Whittle

/- The strategies that settings may name. -/
inductive StrategyChoice where
| greedy
| query (q : PathQuery)
deriving Repr

namespace StrategySettings

def chooseQuery
    (s : StrategySettings) : Except Failure StrategyChoice :=
  if s.query.isTrue then
    match s.query with
    | .text expression =>
        match readQuery expression with
        | .ok q => .ok (.query q)
        | .error e => .error (.settings (.invalidQuery e))
    | .bytes bs =>
        if bs.all fun b => isAsciiBlank (Char.ofNat b.toNat) then
          .error (.settings (.invalidQuery .empty))
        else
          .error .wrongKind
    | _ => .error .notSupported
  else
    .error (.settings .queryMissing)

/- The strategy that settings name. -/
def choose
    (s : StrategySettings) : Except Failure StrategyChoice :=
  if s.name.isText "greedy" then
    .ok .greedy
  else if s.name.isText "query" then
    s.chooseQuery
  else if s.name.isScalar then
    .error (.settings (.unknownStrategy s.name))
  else
    .error .wrongKind

end StrategySettings

end Whittle
