import Whittle.Shell.Regex

/-
  Searching for lines.

  Key definitions include:
    * `GrepOptions`
    * `GrepOptions.ofArguments?`
    * `GrepOptions.search`
-/

------------------------------------------------------------
-- Options
------------------------------------------------------------

namespace Whittle

namespace Shell

/- What a tool leaves: its two outputs and its status. -/
structure ToolResult where
  out : Text
  err : Text
  status : Int
deriving DecidableEq, Repr, Inhabited

/-
  How lines are searched: the letters of the options, the
  patterns that have been given, and the other arguments.
-/
structure GrepOptions where
  letters : List Char
  patterns : Option (List Text)
  operands : List Text
deriving Repr, Inhabited

namespace GrepOptions

def has
    (o : GrepOptions)
    (c : Char) : Bool :=
  o.letters.contains c

/- The letter of an option that is written out. -/
def letterOf? : String → Option Char
  | "--quiet" => some 'q'
  | "--silent" => some 'q'
  | "--count" => some 'c'
  | "--ignore-case" => some 'i'
  | "--invert-match" => some 'v'
  | "--line-regexp" => some 'x'
  | "--word-regexp" => some 'w'
  | "--line-number" => some 'n'
  | "--fixed-strings" => some 'F'
  | "--extended-regexp" => some 'E'
  | "--basic-regexp" => some 'G'
  | "--no-messages" => some 's'
  | "--files-with-matches" => some 'l'
  | "--files-without-match" => some 'L'
  | "--no-filename" => some 'h'
  | "--with-filename" => some 'H'
  | "--only-matching" => some 'o'
  | "--text" => some 'a'
  | _ => none

/- Add a letter. -/
def withLetter
    (o : GrepOptions)
    (c : Char) : GrepOptions :=
  { o with letters := c :: o.letters }

/- Add a pattern; every line of it is one. -/
def withPattern
    (o : GrepOptions)
    (t : Text) : GrepOptions :=
  { o with patterns := some (o.patterns.getD [] ++ Text.lines t) }

/- Add an operand. -/
def withOperand
    (o : GrepOptions)
    (t : Text) : GrepOptions :=
  { o with operands := o.operands ++ [t] }

/- Read the letters of one argument, then the arguments. -/
def readFrom?
    (o : GrepOptions) :
    (fuel : Nat) → (letters : Option Text) → List Text →
      Option GrepOptions
  | 0, _, _ => none
  | fuel + 1, some [], args => readFrom? o fuel none args
  | fuel + 1, some (c :: letters), args =>
      if c = 'e' then
        match letters, args with
        | [], [] => none
        | [], arg :: args =>
            readFrom? (o.withPattern arg) fuel none args
        | _, _ => readFrom? (o.withPattern letters) fuel none args
      else if "qciFEGvxwnslLhHoa".toList.contains c then
        readFrom? (o.withLetter c) fuel (some letters) args
      else
        none
  | _ + 1, none, [] => some o
  | fuel + 1, none, arg :: args =>
      match arg with
      | ['-', '-'] => some (args.foldl withOperand o)
      | '-' :: '-' :: _ =>
          match letterOf? (String.ofList arg) with
          | some c => readFrom? (o.withLetter c) fuel none args
          | none => none
      | '-' :: c :: letters =>
          readFrom? o fuel (some (c :: letters)) args
      | _ => readFrom? (o.withOperand arg) fuel none args

/-
  The options that arguments write.  If no option gives a
  pattern, it is the first operand.
-/
def ofArguments?
    (args : List Text) : Option GrepOptions :=
  let bound := args.length + args.flatten.length + 2
  match readFrom? ⟨[], none, []⟩ bound none args with
  | none => none
  | some o =>
      match o.patterns, o.operands with
      | some _, _ => some o
      | none, first :: rest =>
          some ({ o with operands := rest }.withPattern first)
      | none, [] => none

end GrepOptions

end Shell

end Whittle

------------------------------------------------------------
-- Lines
------------------------------------------------------------

namespace Whittle

namespace Shell

/- The lines of a text without an empty one at its end. -/
def properLines
    (t : Text) : List Text :=
  let ls := Text.lines t
  if ls.getLast? = some [] then ls.dropLast else ls

/-
  The longest places of an expression in a line that do not
  overlap.  `before` is the character in front of the text.
-/
def placesFrom
    (fits : (before : Option Char) → Text → Option Nat) :
    (before : Option Char) → (skip : Nat) → Text → List Text
  | before, _, [] => if (fits before []).isSome then [[]] else []
  | _, skip + 1, c :: rest => placesFrom fits (some c) skip rest
  | before, 0, c :: rest =>
      match fits before (c :: rest) with
      | some n =>
          (c :: rest).take n ::
            placesFrom fits (some c) (n - 1) rest
      | none => placesFrom fits (some c) 0 rest

namespace GrepOptions

/- The expression that the patterns write. -/
def regex?
    (o : GrepOptions) : Option Regex :=
  let read (t : Text) : Option Regex :=
    if o.has 'F' then
      some (.fixed t)
    else
      Regex.ofText? (o.has 'E') t
  let rs := (o.patterns.getD []).mapM read
  rs.map fun rs =>
    let all := rs.foldr .either (.one fun _ => false)
    if o.has 'i' then all.ignoringCase else all

/- The length of the longest fit at the start of a text. -/
def longest?
    (o : GrepOptions)
    (r : Regex)
    (size : Nat)
    (before : Option Char)
    (t : Text) : Option Nat :=
  let isBorder (c : Option Char) : Bool := !c.any isWordChar
  let isGood (rest : Text) : Bool :=
    (!o.has 'x' || (before.isNone && rest.isEmpty)) &&
      (!o.has 'w' || (isBorder before && isBorder rest.head?))
  (((r.rests size t).filter isGood).map fun rest =>
    t.length - rest.length).max?

/- The places in a line that fit. -/
def places
    (o : GrepOptions)
    (r : Regex)
    (line : Text) : List Text :=
  placesFrom (o.longest? r line.length) none 0 line

/- The numbered lines of a file that are asked for. -/
def found
    (o : GrepOptions)
    (r : Regex)
    (contents : Text) : List (Text × Nat) :=
  ((properLines contents).zipIdx 1).filter fun (line, _) =>
    !(o.places r line).isEmpty != o.has 'v'

/- What is printed about a file, and whether a line is found. -/
def report
    (o : GrepOptions)
    (r : Regex)
    (showsName : Bool)
    (name contents : Text) : Text × Bool :=
  let lines := o.found r contents
  let front := if showsName then name ++ [':'] else []
  let number (n : Nat) : Text :=
    if o.has 'n' then (toString n).toList ++ [':'] else []
  let row (line : Text) (n : Nat) : Text :=
    front ++ number n ++ line ++ ['\n']
  let text : Text :=
    if o.has 'q' then
      []
    else if o.has 'l' then
      if lines.isEmpty then [] else name ++ ['\n']
    else if o.has 'L' then
      if lines.isEmpty then name ++ ['\n'] else []
    else if o.has 'c' then
      front ++ (toString lines.length).toList ++ ['\n']
    else if o.has 'o' then
      if o.has 'v' then
        []
      else
        lines.flatMap fun (line, n) =>
          ((o.places r line).filter (!·.isEmpty)).flatMap (row · n)
    else
      lines.flatMap fun (line, n) => row line n
  (text, !lines.isEmpty)

/- Search the files with the given names and contents. -/
def search
    (o : GrepOptions)
    (files : List (Text × Except Text Text)) : ToolResult :=
  match o.regex? with
  | none => ⟨[], "grep: invalid pattern\n".toList, 2⟩
  | some r =>
      let showsName :=
        o.has 'H' || (files.length > 1 && !o.has 'h')
      let results := files.map fun (name, contents) =>
        match contents with
        | .ok t =>
            let (out, isFound) := o.report r showsName name t
            (out, [], isFound, false)
        | .error e =>
            ([], if o.has 's' then [] else e, false, true)
      let isFound := results.any fun (_, _, b, _) => b
      let isFailed := results.any fun (_, _, _, b) => b
      let status : Int :=
        if isFound && (o.has 'q' || !isFailed) then
          0
        else if isFailed then
          2
        else
          1
      ⟨results.flatMap (·.1), results.flatMap (·.2.1), status⟩

end GrepOptions

end Shell

end Whittle
