import Whittle.FrontEnd.Basic

/-
  The bracket language: nested nodes in parentheses with junk
  between them.

  Key definitions include:
    * `Bracket.Header`
    * `Bracket.readHeader?`
    * `Bracket.Scan`
    * `Bracket.scan?`
    * `Bracket.relations`
    * `Bracket.frontEnd`

  A node is written `(Kind=image@use@use ... )`.  A node that
  uses a name is linked with every other node that has the
  name as its image.
-/

------------------------------------------------------------
-- Headers
------------------------------------------------------------

namespace Whittle

namespace Bracket

/- What follows an opening parenthesis. -/
structure Header where
  kind : String
  image : Option String
  uses : List String
deriving DecidableEq, Repr

/- A character of a name. -/
def isNameChar
    (c : Char) : Bool :=
  c.isAlphanum || c = '_'

/- A name after a mark, and what follows it. -/
def readMarked?
    (mark : Char) : Text → Option (Text × Text)
  | c :: rest =>
      if c = mark && rest.head?.any isNameChar then
        some (rest.takeWhile isNameChar,
          rest.dropWhile isNameChar)
      else
        none
  | [] => none

/- All names after `@` that follow, at most `fuel`. -/
def readUses : (fuel : Nat) → Text → List String × Text
  | 0, rest => ([], rest)
  | fuel + 1, rest =>
      match readMarked? '@' rest with
      | none => ([], rest)
      | some (name, after) =>
          let (more, last) := readUses fuel after
          (String.ofList name :: more, last)

/- The header at the start of a text, and what follows it. -/
def readHeader?
    (rest : Text) : Option (Header × Text) :=
  if rest.head?.any fun c => isNameChar c && !c.isDigit then
    let kind := String.ofList (rest.takeWhile isNameChar)
    let afterKind := rest.dropWhile isNameChar
    let (image, afterImage) :=
      match readMarked? '=' afterKind with
      | none => (none, afterKind)
      | some (name, after) =>
          (some (String.ofList name), after)
    let (uses, after) := readUses afterImage.length afterImage
    some (⟨kind, image, uses⟩, after)
  else
    none

end Bracket

end Whittle

------------------------------------------------------------
-- Scanning
------------------------------------------------------------

namespace Whittle

namespace Bracket

/-
  What has been read: the tree so far, the uses of each node,
  the nodes still open, the innermost one first, and the
  place of the next character.
-/
structure Scan where
  tree : Tree
  uses : Array (List String)
  opened : List Nat
  place : Position

/- The start of every scan. -/
def Scan.start
    (name : String) : Scan :=
  let root : Tree :=
    ((Tree.empty 0 name).add "Root" (.ofNumbers 1 1 1 1)
      none none).2
  ⟨root, #[[]], [], ⟨1, 1⟩⟩

/- Move to the right. -/
def Scan.advance
    (s : Scan)
    (columns : Nat) : Scan :=
  { s with
    place := ⟨s.place.line, s.place.column + columns⟩ }

/- Open a node at the current place. -/
def Scan.openNode
    (s : Scan)
    (h : Header) : Scan :=
  let parent := s.tree.node (s.opened.headD 0)
  let index := s.tree.size
  { s with
    tree :=
      (s.tree.add h.kind ⟨s.place, s.place⟩ (some parent)
        h.image).2
    uses := s.uses.push h.uses
    opened := index :: s.opened }

/-
  Where a node ends whose closing parenthesis stands at
  `stop`.  Kinds with some first letters have odd spans.
-/
def lastPosition
    (kind : String)
    (begin stop : Position) : Position :=
  match kind.toList.head? with
  | some 'X' => ⟨stop.line, stop.column + 3⟩
  | some 'Y' => ⟨begin.line, begin.column - 2⟩
  | some 'Z' => begin
  | _ => stop

/- Close the innermost open node at the current place. -/
def Scan.closeNode?
    (s : Scan) : Option Scan :=
  match s.opened with
  | [] => none
  | i :: outer =>
      let begin := (s.tree.span i).first
      let last := lastPosition (s.tree.kind i) begin s.place
      some
        { s with
          tree :=
            s.tree.modify i fun e =>
              { e with span := ⟨begin, last⟩ }
          opened := outer }

/-
  Scan a text, the first `skip` characters of which belong to
  a header already read.
-/
def scanFrom :
    (skip : Nat) → Scan → Text → Option Scan
  | _, s, [] => if s.opened.isEmpty then some s else none
  | skip + 1, s, _ :: rest => scanFrom skip (s.advance 1) rest
  | 0, s, c :: rest =>
      if c = '!' then
        none
      else if c = '\n' then
        scanFrom 0
          { s with place := ⟨s.place.line + 1, 1⟩ } rest
      else if c = '(' then
        match readHeader? rest with
        | none => none
        | some (h, after) =>
            scanFrom (rest.length - after.length)
              ((s.openNode h).advance 1) rest
      else if c = ')' then
        match s.closeNode? with
        | none => none
        | some closed => scanFrom 0 (closed.advance 1) rest
      else
        scanFrom 0 (s.advance 1) rest

/- Let the root span its first up to its last child. -/
def spanRoot
    (t : Tree) : Tree :=
  match (t.children 0).head?, (t.children 0).getLast? with
  | some first, some last =>
      t.modify 0 fun e =>
        { e with
          span := ⟨(t.span first).first, (t.span last).last⟩ }
  | _, _ => t

/- Scan a whole text. -/
def scan?
    (name : String)
    (text : Text) : Option Scan :=
  (scanFrom 0 (.start name) text).map fun s =>
    { s with tree := spanRoot s.tree }

end Bracket

end Whittle

------------------------------------------------------------
-- Links
------------------------------------------------------------

namespace Whittle

namespace Bracket

/- Kinds whose links are told by the using node. -/
def isReporting
    (kind : String) : Bool :=
  kind.toList.head? = some 'R'

/- The other nodes whose image is one of the names. -/
def definitionsOf
    (t : Tree)
    (user : Nat)
    (names : List String) : List Nat :=
  (List.range t.size).filter fun i =>
    i != user && (t.image i).any names.contains

/- The other nodes that use a node's image. -/
def usersOf
    (t : Tree)
    (uses : Array (List String))
    (definition : Nat) : List Nat :=
  (List.range t.size).filter fun i =>
    !isReporting (t.kind i) &&
      (definitionsOf t i ((uses[i]?).getD [])).contains
        definition

/- The links of all nodes. -/
def relations
    (t : Tree)
    (uses : Array (List String)) : Relations where
  dependents :=
    (Array.range t.size).map (usersOf t uses)
  dependencies :=
    (Array.range t.size).map fun i =>
      if isReporting (t.kind i) then
        definitionsOf t i ((uses[i]?).getD [])
      else
        []

/- The bracket language. -/
def frontEnd : FrontEnd where
  name := "toy"
  parse := fun name text =>
    (scan? name text).map fun s =>
      ⟨s.tree, fun _ => relations s.tree s.uses⟩
  isRemovableGap := fun text => !text.contains ';'

end Bracket

end Whittle
