import Whittle.Yaml.Mark

/-
  Reading a YAML text into marks.

  Key definitions include:
    * `Yaml.PendingKey`
    * `Yaml.Layout`
    * `Yaml.Layout.step?`
    * `Yaml.marksOf?`

  Levels of blocks are opened and closed by indentation.  A
  word turns out to be a key when the colon after it is
  found; the mark of the key is then put in front of it.
-/

------------------------------------------------------------
-- State
------------------------------------------------------------

namespace Whittle

namespace Yaml

/-
  Something that is a key if a colon follows it.  `mark` is
  the number of marks before it.
-/
structure PendingKey where
  mark : Nat
  isRequired : Bool
  index : Nat
  line : Nat
  column : Nat
deriving Repr, Inhabited

/-
  How far a text has been read: the columns of the open
  levels, the innermost one first, the number of open
  brackets, whether a key may start here, the marks so far,
  and the pending key of each depth of brackets.
-/
structure Layout where
  place : Place
  indents : List Int
  depth : Nat
  mayKey : Bool
  marks : Array Mark
  keys : List (Nat × PendingKey)
deriving Inhabited

namespace Layout

/- The layout at the start of a text. -/
def start
    (t : Text) : Layout :=
  ⟨.start t, [], 0, true, #[], []⟩

/- The column of the innermost level, or one before them all. -/
def indent
    (l : Layout) : Int :=
  l.indents.head?.getD (-1)

/- Between brackets indentation does not count. -/
def isInFlow
    (l : Layout) : Bool :=
  0 < l.depth

/- Add a mark. -/
def push
    (l : Layout)
    (m : Mark) : Layout :=
  { l with marks := l.marks.push m }

/- Go over some characters. -/
def skip
    (l : Layout)
    (k : Nat) : Layout :=
  { l with place := l.place.forward k }

/- Open a level at a column, if it lies further in. -/
def opened
    (l : Layout)
    (column : Nat)
    (index : Nat)
    (m : Mark) : Layout :=
  if l.indent < column then
    { l with
      indents := (column : Int) :: l.indents
      marks := (l.marks.toList.insertIdx index m).toArray }
  else
    l

/- Close the levels that lie further in than a column. -/
def closed
    (column : Int)
    (marks : Array Mark) : List Int → Array Mark × List Int
  | [] => (marks, [])
  | indent :: rest =>
      if column < indent then
        closed column (marks.push .closeBlock) rest
      else
        (marks, indent :: rest)

/- Close the levels that end in front of a column. -/
def unwound
    (l : Layout)
    (column : Int) : Layout :=
  if l.isInFlow then
    l
  else
    let (marks, indents) := closed column l.marks l.indents
    { l with marks := marks, indents := indents }

end Layout

end Yaml

end Whittle

------------------------------------------------------------
-- Keys
------------------------------------------------------------

namespace Whittle

namespace Yaml

namespace Layout

/- The key that may start at this depth of brackets. -/
def pending?
    (l : Layout) : Option PendingKey :=
  l.keys.lookup l.depth

/- Forget the pending key of this depth of brackets. -/
def forgotten
    (l : Layout) : Layout :=
  { l with keys := l.keys.filter (·.1 ≠ l.depth) }

/- Give up the pending key, unless a key has to be here. -/
def dropKey?
    (l : Layout) : Option Layout :=
  match l.pending? with
  | some k => if k.isRequired then none else some l.forgotten
  | none => some l

/- What comes next is a key if a colon follows it. -/
def saveKey?
    (l : Layout) : Option Layout :=
  if l.mayKey then
    l.dropKey?.map fun l =>
      let p := l.place
      { l with
        keys :=
          (l.depth,
            { mark := l.marks.size
              isRequired :=
                !l.isInFlow && l.indent = p.column
              index := p.index
              line := p.line
              column := p.column }) :: l.keys }
  else
    some l

/- A key has to end on its line and may not be too long. -/
def isStale
    (l : Layout)
    (k : PendingKey) : Bool :=
  k.line ≠ l.place.line || k.index + 1024 < l.place.index

/- Forget the keys that cannot be keys any more. -/
def dropStale?
    (l : Layout) : Option Layout :=
  if l.keys.any fun k => l.isStale k.2 && k.2.isRequired then
    none
  else
    some { l with keys := l.keys.filter (!l.isStale ·.2) }

end Layout

end Yaml

end Whittle

------------------------------------------------------------
-- Steps
------------------------------------------------------------

namespace Whittle

namespace Yaml

namespace Layout

/- Go over blanks, comments and line ends. -/
def overGaps :
    (fuel : Nat) → Layout → Layout
  | 0, l => l
  | fuel + 1, l =>
      let p := l.place.past (· = ' ')
      let p :=
        if p.peek 0 = some '#' then
          p.past (!isLineEnd ·)
        else
          p
      match p.peek 0 with
      | some c =>
          if isLineEnd c then
            overGaps fuel
              { l with
                place := p.next
                mayKey := l.mayKey || !l.isInFlow }
          else
            { l with place := p }
      | none => { l with place := p }

/- Open a bracket. -/
def openFlow?
    (l : Layout)
    (m : Mark) : Option Layout :=
  l.saveKey?.map fun l =>
    { (l.push m).skip 1 with
      depth := l.depth + 1
      mayKey := true }

/- Close a bracket. -/
def closeFlow?
    (l : Layout)
    (m : Mark) : Option Layout :=
  if l.depth = 0 then
    none
  else
    l.dropKey?.map fun l =>
      { (l.push m).skip 1 with
        depth := l.depth - 1
        mayKey := false }

/- A dash in front of an item. -/
def readItem?
    (l : Layout) : Option Layout :=
  if l.isInFlow then
    none
  else if l.mayKey then
    (l.opened l.place.column l.marks.size .openSequence).dropKey?.map
      fun l => { (l.push .item).skip 1 with mayKey := true }
  else
    none

/- A question mark in front of a key. -/
def readKey?
    (l : Layout) : Option Layout :=
  if l.isInFlow || l.mayKey then
    let l :=
      if l.isInFlow then
        l
      else
        l.opened l.place.column l.marks.size .openMapping
    l.dropKey?.map fun l =>
      { (l.push .key).skip 1 with mayKey := !l.isInFlow }
  else
    none

/- A colon in front of a value. -/
def readValue?
    (l : Layout) : Option Layout :=
  match l.pending? with
  | some k =>
      let l := l.forgotten
      let l :=
        { l with
          marks :=
            (l.marks.toList.insertIdx k.mark .key).toArray }
      let l :=
        if l.isInFlow then
          l
        else
          l.opened k.column k.mark .openMapping
      some { (l.push .value).skip 1 with mayKey := false }
  | none =>
      if l.isInFlow then
        some { (l.push .value).skip 1 with mayKey := false }
      else if l.mayKey then
        let l := l.opened l.place.column l.marks.size .openMapping
        some { (l.push .value).skip 1 with mayKey := true }
      else
        none

/- A character of the name of an anchor. -/
def isNameChar
    (c : Char) : Bool :=
  c.isAlphanum || c = '-' || c = '_'

/- The name of an anchor or of a reference to one. -/
def readName?
    (l : Layout)
    (mark : Text → Mark) : Option Layout :=
  match l.saveKey? with
  | none => none
  | some l =>
      let p := l.place.next
      let name := p.rest.takeWhile isNameChar
      let q := p.forward name.length
      let endsWell :=
        isGapAt (q.peek 0) ||
          ((q.peek 0).map "?:,]\x7d%@\x60".toList.contains).getD
            false
      if name.isEmpty || !endsWell then
        none
      else
        some
          { l.push (mark name) with place := q, mayKey := false }

/- A tag, which is kept as it is written. -/
def readTag?
    (l : Layout) : Option Layout :=
  l.saveKey?.map fun l =>
    let isInside (c : Char) : Bool :=
      !isGapAt (some c) &&
        !(l.isInFlow && ",[]\x7b\x7d".toList.contains c)
    let name := l.place.rest.takeWhile isInside
    { (l.push (.tag name)).skip name.length with mayKey := false }

/- A word of several lines after a bar or a bow. -/
def readBlockWord?
    (l : Layout)
    (isFolded : Bool) : Option Layout :=
  match l.dropKey? with
  | none => none
  | some l =>
      (readBlock? isFolded l.indent l.place.next).map
        fun (t, p) =>
          { l.push (.word t false) with place := p, mayKey := true }

/- A word between quotes. -/
def readQuotedWord?
    (l : Layout)
    (mark : Char) : Option Layout :=
  match l.saveKey? with
  | none => none
  | some l =>
      let p := l.place.next
      (readQuoted? mark (p.rest.length + 1) p).map fun (t, p) =>
        { l.push (.word t false) with place := p, mayKey := false }

/- A word without quotes. -/
def readPlainWord?
    (l : Layout) : Option Layout :=
  l.saveKey?.map fun l =>
    let (t, p, ended) :=
      readPlain l.isInFlow (l.indent + 1) l.place.rest.length []
        l.place false
    { l.push (.word t true) with place := p, mayKey := ended }

/- A character that a plain word cannot start with. -/
def isSign
    (c : Char) : Bool :=
  "-?:,[]\x7b\x7d#&*!|>\x27\x22%@\x60".toList.contains c

/- A plain word starts with these characters. -/
def startsPlain
    (l : Layout)
    (c : Char)
    (after : Option Char) : Bool :=
  (!isGapAt (some c) && !isSign c) ||
    (!isGapAt after &&
      (c = '-' || (!l.isInFlow && (c = '?' || c = ':'))))

/- A separator of documents. -/
def readSeparator?
    (l : Layout)
    (m : Mark) : Option Layout :=
  ((l.unwound (-1)).dropKey?).map fun l =>
    { (l.push m).skip 3 with mayKey := false }

/- Read the mark that starts with the given characters. -/
def readMark?
    (l : Layout)
    (c : Char)
    (after : Option Char) : Option Layout :=
  let signsHere := l.isInFlow || isGapAt after
  if l.place.isAtSeparator then
    l.readSeparator?
      (if c = '-' then .documentStart else .documentEnd)
  else if c = '[' then
    l.openFlow? .openBracket
  else if c = '\x7b' then
    l.openFlow? .openBrace
  else if c = ']' then
    l.closeFlow? .closeBracket
  else if c = '\x7d' then
    l.closeFlow? .closeBrace
  else if c = ',' then
    l.dropKey?.map fun l =>
      { (l.push .comma).skip 1 with mayKey := true }
  else if c = '-' && isGapAt after then
    l.readItem?
  else if c = '?' && signsHere then
    l.readKey?
  else if c = ':' && signsHere then
    l.readValue?
  else if c = '*' then
    l.readName? .reference
  else if c = '&' then
    l.readName? .anchor
  else if c = '!' then
    l.readTag?
  else if c = '|' && !l.isInFlow then
    l.readBlockWord? false
  else if c = '>' && !l.isInFlow then
    l.readBlockWord? true
  else if c = '\'' || c = '"' then
    l.readQuotedWord? c
  else if l.startsPlain c after then
    l.readPlainWord?
  else
    none

/-
  Read one mark.  The flag says whether there was one before
  the end of the text.
-/
def step?
    (l : Layout) : Option (Bool × Layout) :=
  match (overGaps (l.place.rest.length + 1) l).dropStale? with
  | none => none
  | some l =>
      let l := l.unwound l.place.column
      match l.place.rest with
      | [] => ((l.unwound (-1)).dropKey?).map (false, ·)
      | c :: rest => (l.readMark? c rest.head?).map (true, ·)

/- Read marks up to the end of the text. -/
def run?
    (l : Layout) : (fuel : Nat) → Option Layout
  | 0 => none
  | fuel + 1 =>
      match l.step? with
      | none => none
      | some (false, l) => some l
      | some (true, l) => l.run? fuel

end Layout

end Yaml

end Whittle

------------------------------------------------------------
-- Texts
------------------------------------------------------------

namespace Whittle

namespace Yaml

/- A character that a document may hold. -/
def isAllowed
    (c : Char) : Bool :=
  let n := c.toNat
  n = 0x09 || n = 0x0A || n = 0x0D ||
    (0x20 ≤ n && n ≤ 0x7E) || n = 0x85 ||
    (0xA0 ≤ n && n ≤ 0xFFFD) || 0x10000 ≤ n

/- The marks of a text, if it can be read. -/
def marksOf?
    (t : Text) : Option (List Mark) :=
  if t.all isAllowed then
    let t := if t.head? = some '\uFEFF' then t.drop 1 else t
    ((Layout.start t).run? (t.length + 1)).map (·.marks.toList)
  else
    none

end Yaml

end Whittle
