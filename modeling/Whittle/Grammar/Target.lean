import Whittle.Grammar.Cursor

/-
  Terms that a value can be bound to.

  Key definitions include:
    * `Term.retarget?`
    * `Term.isSingleTarget`
-/

------------------------------------------------------------
-- Targets
------------------------------------------------------------

namespace Whittle

namespace Term

/- A name, an attribute or a subscript. -/
def isSingleTarget
    (t : Term) : Bool :=
  ["Name", "Attribute", "Subscript"].contains t.label

/- Sequences whose items are targets themselves. -/
def isTargetList
    (context label : String) : Bool :=
  label = "Tuple" || label = "List" ||
    (label = "Starred" && context = "Store")

mutual

/-
  A term read as an expression, with its names in another
  context, if it is a target.
-/
def retarget?
    (context : String) : Term → Option Term
  | .blank => none
  | .word _ => none
  | .several items =>
      (retargetAll? context items).map .several
  | .node label extent parts =>
      if label = "Name" then
        some
          (.node label extent
            [("id", (Term.node label extent parts).part "id"),
              ("ctx", .node context none [])])
      else if label = "Attribute" || label = "Subscript" then
        some (.node label extent parts)
      else if isTargetList context label then
        (retargetParts? context parts).map
          (.node label extent)
      else
        none

/- All terms of a list as targets. -/
def retargetAll?
    (context : String) : List Term → Option (List Term)
  | [] => some []
  | t :: rest =>
      match retarget? context t, retargetAll? context rest with
      | some t', some rest' => some (t' :: rest')
      | _, _ => none

/- All parts of a term as targets. -/
def retargetParts?
    (context : String) :
    List (String × Term) → Option (List (String × Term))
  | [] => some []
  | (name, t) :: rest =>
      match retarget? context t,
        retargetParts? context rest with
      | some t', some rest' => some ((name, t') :: rest')
      | _, _ => none

end

end Term

namespace Reader

/- Take a term as a target or fail. -/
def asTarget
    (context : String)
    (t : Term) : Reader Term :=
  match t.retarget? context with
  | some target => return target
  | none => failure

end Reader

end Whittle
