import Whittle.FrontEnd.Basic
import Whittle.Grammar.Statement
import Whittle.Term.Links
import Whittle.Text.Blank

/-
  The Python language, version 3.11.

  Key definitions include:
    * `Python.term?`
    * `Python.isComment`
    * `Python.frontEnd`
-/

------------------------------------------------------------
-- Reading
------------------------------------------------------------

namespace Whittle

namespace Python

/- The term of a text that follows the grammar. -/
def term?
    (isCharacterName : String → Bool)
    (text : Text) : Option Term :=
  match Token.ofText? text with
  | none => none
  | some tokens =>
      Term.ofTokens? isCharacterName text.length tokens

/- The tree of a text with the relations of its nodes. -/
def parse?
    (isCharacterName : String → Bool)
    (name : String)
    (text : Text) : Option Parsed :=
  (term? isCharacterName text).map fun t =>
    let o := Outline.ofTerm name text t
    ⟨o.tree, fun _ => o.relations⟩

end Python

end Whittle

------------------------------------------------------------
-- The Front End
------------------------------------------------------------

namespace Whittle

namespace Python

/- A line that holds nothing or a comment. -/
def isComment
    (line : Text) : Bool :=
  let stripped := Text.strip line
  stripped.isEmpty || stripped.head? = some '#'

/-
  Blank lines and comments may be trimmed.  Words such as
  `else:` that stand between nodes may not.
-/
def isRemovableGap
    (gap : Text) : Bool :=
  gap.lines.all isComment

/-
  The Python language, in which `isCharacterName` knows the
  names of characters.
-/
def frontEnd
    (isCharacterName : String → Bool) : FrontEnd where
  name := "python"
  parse := parse? isCharacterName
  isRemovableGap := isRemovableGap

end Python

end Whittle
