/-
  Terms: what a grammar makes of a text.

  Key definitions include:
    * `Place`
    * `Extent`
    * `Term`
    * `Term.part`
    * `Term.image?`

  A term has a label and named parts.  Terms without an
  extent only group the terms below them.
-/

------------------------------------------------------------
-- Places And Extents
------------------------------------------------------------

namespace Whittle

/-
  A place in a text: a line counted from one, and a number of
  UTF-8 bytes in this line.
-/
structure Place where
  line : Nat
  bytes : Nat
deriving DecidableEq, Repr, Inhabited

/- The piece of text from one place up to another one. -/
structure Extent where
  first : Place
  last : Place
deriving DecidableEq, Repr, Inhabited

end Whittle

------------------------------------------------------------
-- Terms
------------------------------------------------------------

namespace Whittle

/- A labelled term, or what may stand as one of its parts. -/
inductive Term where
| blank
| word (text : String)
| several (items : List Term)
| node
    (label : String)
    (extent : Option Extent)
    (parts : List (String × Term))
deriving Inhabited

namespace Term

def label : Term → String
  | .node label _ _ => label
  | _ => ""

def extent? : Term → Option Extent
  | .node _ extent _ => extent
  | _ => none

/- The named parts of a term. -/
def parts : Term → List (String × Term)
  | .node _ _ parts => parts
  | _ => []

/- The part of a name, `blank` if there is none. -/
def part
    (t : Term)
    (name : String) : Term :=
  (t.parts.lookup name).getD .blank

/- The text of a word. -/
def text? : Term → Option String
  | .word text => some text
  | _ => none

/- The items of a sequence. -/
def items : Term → List Term
  | .several items => items
  | _ => []

/- The text of a part that is a word. -/
def word?
    (t : Term)
    (name : String) : Option String :=
  (t.part name).text?

end Term

end Whittle

------------------------------------------------------------
-- Classes Of Terms
------------------------------------------------------------

namespace Whittle

namespace Term

/- Definitions of functions and classes. -/
def isDefinition
    (t : Term) : Bool :=
  ["FunctionDef", "AsyncFunctionDef", "ClassDef"].contains
    t.label

/- Imports of whole modules or of names from a module. -/
def isImport
    (t : Term) : Bool :=
  ["Import", "ImportFrom"].contains t.label

def isStatement
    (t : Term) : Bool :=
  [
    "FunctionDef", "AsyncFunctionDef", "ClassDef", "Return",
    "Delete", "Assign", "AugAssign", "AnnAssign", "For",
    "AsyncFor", "While", "If", "With", "AsyncWith", "Match",
    "Raise", "Try", "TryStar", "Assert", "Import",
    "ImportFrom", "Global", "Nonlocal", "Expr", "Pass",
    "Break", "Continue"
  ].contains t.label

/-
  Terms that are looked at as a whole.  Places inside a text
  with replacement fields are not reliable.
-/
def isAtomic
    (t : Term) : Bool :=
  ["JoinedStr", "TemplateStr"].contains t.label

/- The new name of an imported thing, or else its own name. -/
def importedName?
    (item : Term) : Option String :=
  match item.word? "asname" with
  | some name =>
      if name.isEmpty then item.word? "name" else some name
  | none => item.word? "name"

/- What a node of the tree shows of its term. -/
def image?
    (t : Term) : Option String :=
  match t.label with
  | "FunctionDef" => t.word? "name"
  | "AsyncFunctionDef" => t.word? "name"
  | "ClassDef" => t.word? "name"
  | "Name" => t.word? "id"
  | "arg" => t.word? "arg"
  | "Attribute" => t.word? "attr"
  | "keyword" => t.word? "arg"
  | "alias" => t.importedName?
  | "ImportFrom" => t.word? "module"
  | _ => none

end Term

end Whittle
