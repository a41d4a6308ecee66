import Whittle.Yaml.Layout
import Whittle.Yaml.Scalar

/-
  YAML documents, as the command line of this library reads
  its settings.

  Key definitions include:
    * `Yaml.Pending`
    * `Yaml.readNode`
    * `Value.ofYaml?`

  A text holds at most one document.  Only the tags of the
  standard schema are known.  A run may be given any other
  reader of documents instead.
-/

------------------------------------------------------------
-- Tags
------------------------------------------------------------

namespace Whittle

namespace Yaml

/- What may stand in front of a node. -/
structure Properties where
  anchor : Option Text
  tag : Option Text
deriving Repr, Inhabited

namespace Properties

/- Nothing stands in front of a node. -/
def none : Properties :=
  ⟨Option.none, Option.none⟩

/- There is an anchor or a tag. -/
def isGiven
    (p : Properties) : Bool :=
  p.anchor.isSome || p.tag.isSome

/- The tag without the parts that say which schema it is of. -/
def shortTag
    (p : Properties) : Option String :=
  p.tag.map fun t =>
    let long := "!<tag:yaml.org,2002:".toList
    if long.isPrefixOf t then
      "!!" ++ String.ofList ((t.drop long.length).dropLast)
    else
      String.ofList t

end Properties

/- The meaning of a word under a tag. -/
def tagged?
    (tag : Option String)
    (t : Text)
    (isPlain : Bool) : Option Plain :=
  let asText : Plain := .value (.text (String.ofList t))
  match tag with
  | none => some (if isPlain then plain t else asText)
  | some "!" => some asText
  | some "!!str" => some asText
  | some "!!null" => some (.value .null)
  | some "!!bool" =>
      match plain t with
      | .value (.flag b) => some (.value (.flag b))
      | _ => none
  | some "!!int" => (integer? t).map (.value <| .number ·)
  | some "!!float" =>
      match decimal? t, integer? t with
      | some d, _ => some (.value (.decimal d))
      | none, some n => some (.value (.decimal (.ofInt n)))
      | none, none => (endless? t).map .value
  | some _ => none

/- A collection may have the tag of its own kind only. -/
def fitsTag
    (own : String)
    (tag : Option String) : Bool :=
  tag = none || tag = some "!" || tag = some own

end Yaml

end Whittle

------------------------------------------------------------
-- Collections
------------------------------------------------------------

namespace Whittle

namespace Yaml

/- The value of a node, if it has one. -/
def Plain.value? : Plain → Option Value
  | .value v => some v
  | .merge => none
  | .equals => none

/- Put an entry in the place of one with the same key. -/
def withEntry
    (k v : Value) :
    List (Value × Value) → List (Value × Value)
  | [] => [(k, v)]
  | (l, w) :: rest =>
      if k.quoted = l.quoted then
        (l, v) :: rest
      else
        (l, w) :: withEntry k v rest

/- The entries that the value of a merge stands for. -/
def merged? : Value → Option (List (Value × Value))
  | .mapping entries => some entries
  | .sequence items =>
      (items.reverse.mapM fun v =>
        match v with
        | Value.mapping entries => some entries
        | _ => none).map List.flatten
  | _ => none

/- The entries that are merged into a mapping. -/
def mergedEntries? :
    List (Plain × Value) → Option (List (Value × Value))
  | [] => some []
  | (.merge, v) :: rest =>
      match merged? v, mergedEntries? rest with
      | some entries, some more => some (entries ++ more)
      | _, _ => none
  | _ :: rest => mergedEntries? rest

/-
  The mapping of some entries: merged ones come first, and a
  later entry replaces an earlier one with its key.  Keys
  have to be scalars.
-/
def mappingOf?
    (entries : List (Plain × Value)) : Option Value :=
  let own := entries.filter fun e => e.1 matches .value _ | .equals
  match mergedEntries? entries, own.mapM fun e => e.1.value? with
  | some first, some keys =>
      if keys.all Value.isScalar then
        some
          (.mapping
            ((first ++ keys.zip (own.map (·.2))).foldl
              (fun es e => withEntry e.1 e.2 es) []))
      else
        none
  | _, _ => none

end Yaml

end Whittle

------------------------------------------------------------
-- Reading Nodes
------------------------------------------------------------

namespace Whittle

namespace Yaml

/- The marks that are still to be read, and the known anchors. -/
structure Pending where
  marks : List Mark
  anchors : List (Text × Option Value)
deriving Inhabited

/- Reading nodes, which may fail. -/
abbrev Reading :=
  StateT Pending Option

/- The next mark. -/
def peekMark : Reading (Option Mark) :=
  fun p => some (p.marks.head?, p)

/- Go over a mark. -/
def dropMark : Reading Unit :=
  fun p => some ((), { p with marks := p.marks.drop 1 })

/- The next mark is one of these. -/
def isNext
    (ms : List Mark) : Reading Bool :=
  fun p =>
    some ((p.marks.head?.map ms.contains).getD false, p)

/- Go over a mark that has to come next. -/
def expectMark
    (m : Mark) : Reading Unit :=
  fun p =>
    if p.marks.head? = some m then
      some ((), { p with marks := p.marks.drop 1 })
    else
      none

/- Anchors and tags, at most one of each. -/
def readProperties : Reading Properties :=
  fun p =>
    match p.marks with
    | .anchor a :: .tag t :: rest =>
        some (⟨some a, some t⟩, { p with marks := rest })
    | .tag t :: .anchor a :: rest =>
        some (⟨some a, some t⟩, { p with marks := rest })
    | .anchor a :: rest =>
        some (⟨some a, none⟩, { p with marks := rest })
    | .tag t :: rest =>
        some (⟨none, some t⟩, { p with marks := rest })
    | _ => some (.none, p)

/- Make an anchor known; no two nodes have the same one. -/
def declare
    (a : Option Text) : Reading Unit :=
  fun p =>
    match a with
    | none => some ((), p)
    | some a =>
        if (p.anchors.lookup a).isSome then
          none
        else
          some ((), { p with anchors := (a, none) :: p.anchors })

/- Say what node an anchor belongs to. -/
def define
    (a : Option Text)
    (v : Option Value) : Reading Unit :=
  fun p =>
    match a with
    | none => some ((), p)
    | some a =>
        some ((), { p with anchors := (a, v) :: p.anchors })

/- The node that a reference is about. -/
def resolve
    (a : Text) : Reading Plain :=
  fun p =>
    match p.anchors.lookup a with
    | some (some v) => some (.value v, p)
    | _ => none

/- A node that is left out. -/
def emptyNode : Plain :=
  .value .null

/- The value of a node that has to have one. -/
def valueOf
    (n : Plain) : Reading Value :=
  fun p => n.value?.map (·, p)

mutual

/-
  A node.  `inBlock` allows levels by indentation, `flatItems`
  also items that are not indented.
-/
def readNode
    (inBlock flatItems : Bool) : (fuel : Nat) → Reading Plain
  | 0 => failure
  | fuel + 1 => do
      let before ← peekMark
      match before with
      | some (.reference a) =>
          dropMark
          resolve a
      | _ =>
          let properties ← readProperties
          declare properties.anchor
          let tag := properties.shortTag
          let node ←
            readContent inBlock flatItems properties.isGiven tag fuel
          define properties.anchor node.value?
          pure node

/- What stands after the properties of a node. -/
def readContent
    (inBlock flatItems isGiven : Bool)
    (tag : Option String) : (fuel : Nat) → Reading Plain
  | 0 => failure
  | fuel + 1 => do
      let next ← peekMark
      match next with
      | some (.word t isPlain) =>
          dropMark
          match tagged? tag t isPlain with
          | some n => pure n
          | none => failure
      | some .openBracket =>
          dropMark
          let items ← readFlowItems true fuel
          sequenceOf items tag
      | some .openBrace =>
          dropMark
          let entries ← readFlowEntries true fuel
          mappingOf entries tag
      | some .item =>
          if flatItems then
            let items ← readItems fuel
            sequenceOf items tag
          else
            emptyOrFail isGiven tag
      | some .openSequence =>
          if inBlock then
            dropMark
            let items ← readItems fuel
            expectMark .closeBlock
            sequenceOf items tag
          else
            emptyOrFail isGiven tag
      | some .openMapping =>
          if inBlock then
            dropMark
            let entries ← readEntries fuel
            expectMark .closeBlock
            mappingOf entries tag
          else
            emptyOrFail isGiven tag
      | _ => emptyOrFail isGiven tag

/- A sequence with its tag. -/
def sequenceOf
    (items : List Value)
    (tag : Option String) : Reading Plain :=
  if fitsTag "!!seq" tag then
    pure (.value (.sequence items))
  else
    failure

/- A mapping with its tag. -/
def mappingOf
    (entries : List (Plain × Value))
    (tag : Option String) : Reading Plain :=
  match mappingOf? entries with
  | some v =>
      if fitsTag "!!map" tag then
        pure (.value v)
      else
        failure
  | none => failure

/- Only a node with properties may be empty. -/
def emptyOrFail
    (isGiven : Bool)
    (tag : Option String) : Reading Plain :=
  match tagged? tag [] true with
  | some n => if isGiven then pure n else failure
  | none => failure

/- The items of a block. -/
def readItems : (fuel : Nat) → Reading (List Value)
  | 0 => failure
  | fuel + 1 => do
      let isItem ← isNext [.item]
      if isItem then
        dropMark
        let isEmpty ← isNext [.item, .key, .value, .closeBlock]
        let node ←
          if isEmpty then
            pure emptyNode
          else
            readNode true false fuel
        let v ← valueOf node
        let more ← readItems fuel
        pure (v :: more)
      else
        pure []

/- The value after a key, which may be missing. -/
def readEntryValue
    (ends : List Mark)
    (inBlock : Bool) : (fuel : Nat) → Reading Value
  | 0 => failure
  | fuel + 1 => do
      let isGiven ← isNext [.value]
      if isGiven then
        dropMark
        let isEmpty ← isNext ends
        if isEmpty then
          pure .null
        else
          let node ← readNode inBlock inBlock fuel
          valueOf node
      else
        pure .null

/- The entries of a block. -/
def readEntries : (fuel : Nat) → Reading (List (Plain × Value))
  | 0 => failure
  | fuel + 1 => do
      let isKey ← isNext [.key]
      if isKey then
        dropMark
        let isEmpty ← isNext [.key, .value, .closeBlock]
        let k ←
          if isEmpty then
            pure emptyNode
          else
            readNode true true fuel
        let v ← readEntryValue [.key, .value, .closeBlock] true fuel
        let more ← readEntries fuel
        pure ((k, v) :: more)
      else
        pure []

/- The items between brackets. -/
def readFlowItems
    (isFirst : Bool) : (fuel : Nat) → Reading (List Value)
  | 0 => failure
  | fuel + 1 => do
      let isOver ← isNext [.closeBracket]
      if isOver then
        dropMark
        pure []
      else
        if isFirst then
          pure ()
        else
          expectMark .comma
        let isOver ← isNext [.closeBracket]
        if isOver then
          dropMark
          pure []
        else
          let isKey ← isNext [.key]
          let v ←
            if isKey then
              dropMark
              let isEmpty ← isNext [.value, .comma, .closeBracket]
              let k ←
                if isEmpty then
                  pure emptyNode
                else
                  readNode false false fuel
              let v ←
                readEntryValue [.comma, .closeBracket] false fuel
              let node ← mappingOf [(k, v)] none
              valueOf node
            else
              let node ← readNode false false fuel
              valueOf node
          let more ← readFlowItems false fuel
          pure (v :: more)

/- The entries between braces. -/
def readFlowEntries
    (isFirst : Bool) :
    (fuel : Nat) → Reading (List (Plain × Value))
  | 0 => failure
  | fuel + 1 => do
      let isOver ← isNext [.closeBrace]
      if isOver then
        dropMark
        pure []
      else
        if isFirst then
          pure ()
        else
          expectMark .comma
        let isOver ← isNext [.closeBrace]
        if isOver then
          dropMark
          pure []
        else
          let isKey ← isNext [.key]
          let entry ←
            if isKey then
              dropMark
              let isEmpty ← isNext [.value, .comma, .closeBrace]
              let k ←
                if isEmpty then
                  pure emptyNode
                else
                  readNode false false fuel
              let v ← readEntryValue [.comma, .closeBrace] false fuel
              pure (k, v)
            else
              let k ← readNode false false fuel
              pure (k, .null)
          let more ← readFlowEntries false fuel
          pure (entry :: more)

end

end Yaml

end Whittle

------------------------------------------------------------
-- Documents
------------------------------------------------------------

namespace Whittle

namespace Yaml

/- Go over the signs that end a document. -/
def dropEnds
    (ms : List Mark) : List Mark :=
  ms.dropWhile (· = .documentEnd)

/- The value of the only document, if there is one. -/
def document?
    (ms : List Mark) : Option Value :=
  match ms with
  | [] => some .null
  | m :: rest =>
      let marks := if m = .documentStart then rest else ms
      let isEmpty :=
        m = .documentStart &&
          (marks.head? = none || marks.head? = some .documentEnd)
      if isEmpty then
        if (dropEnds marks).isEmpty then some .null else none
      else
        match readNode true false (4 * ms.length + 4) ⟨marks, []⟩ with
        | none => none
        | some (node, p) =>
            if (dropEnds p.marks).isEmpty then
              node.value?
            else
              none

/- A line without blanks and without a comment. -/
def isIdleLine
    (line : Text) : Bool :=
  let rest := line.dropWhile (· = ' ')
  rest.isEmpty || rest.head? = some '#'

/- A directive that this reader can follow or leave aside. -/
def isGoodDirective
    (line : Text) : Bool :=
  match splitWhere (· = ' ') line with
  | name :: arguments =>
      let version := (arguments.filter (!·.isEmpty)).head?.getD []
      name ≠ "%YAML".toList ||
        ("1.".toList.isPrefixOf version &&
          version.length > 2 && (version.drop 2).all Char.isDigit)
  | [] => true

/-
  The lines after the directives that a text may start with.
  The flag tells whether there have been any.
-/
def withoutDirectives? :
    (hasAny : Bool) → List Text → Option (Bool × List Text)
  | hasAny, [] => some (hasAny, [])
  | hasAny, line :: rest =>
      if line.head? = some '%' then
        if isGoodDirective line then
          withoutDirectives? true rest
        else
          none
      else if isIdleLine line then
        withoutDirectives? hasAny rest
      else
        some (hasAny, line :: rest)

end Yaml

/-
  The value that a YAML text writes.  A document that follows
  directives has to begin with its sign.
-/
def Value.ofYaml?
    (t : Text) : Option Value :=
  match Yaml.withoutDirectives? false t.lines with
  | none => none
  | some (false, _) => (Yaml.marksOf? t).bind Yaml.document?
  | some (true, rest) =>
      match Yaml.marksOf? (Text.ofLines rest) with
      | some (.documentStart :: ms) =>
          Yaml.document? (.documentStart :: ms)
      | _ => none

end Whittle
