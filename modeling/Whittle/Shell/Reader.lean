import Whittle.Shell.Script

/-
  Reading scripts for the shell of the command line.

  Key definitions include:
    * `Shell.readWord`
    * `Shell.readScript`
    * `Script.ofText?`

  Each reader takes what it can from the start of a text and
  leaves the rest.  `fuel` bounds the depth and the number of
  parts, so it is enough to take the length of the text.
-/

------------------------------------------------------------
-- Characters
------------------------------------------------------------

namespace Whittle

namespace Shell

/- Reading from a text, which may fail. -/
abbrev Reading :=
  StateT Text Option

/- A character of a name. -/
def isNameChar
    (c : Char) : Bool :=
  c.isAlphanum || c = '_'

/- A name of a variable. -/
def isName : Text → Bool
  | [] => false
  | c :: rest => (c.isAlpha || c = '_') && rest.all isNameChar

/- A character that ends a word. -/
def endsWord
    (c : Char) : Bool :=
  " \t\n;&|<>()".toList.contains c

/- The next character. -/
def peek : Reading (Option Char) :=
  fun t => some (t.head?, t)

/- The next characters are these. -/
def isNext
    (s : String) : Reading Bool :=
  fun t => some (s.toList.isPrefixOf t, t)

/- Go over some characters. -/
def skip
    (n : Nat) : Reading Unit :=
  fun t => some ((), t.drop n)

/- Take characters of a class. -/
def takeAll
    (isInside : Char → Bool) : Reading Text :=
  fun t => some (t.takeWhile isInside, t.dropWhile isInside)

/- Go over characters that have to come next. -/
def expect
    (s : String) : Reading Unit := do
  if ← isNext s then skip s.length else failure

/- A text without the blanks and comments that it starts with. -/
def withoutBlanks : (fuel : Nat) → Text → Text
  | 0, t => t
  | fuel + 1, t =>
      match t with
      | '\\' :: '\n' :: rest => withoutBlanks fuel rest
      | '#' :: rest => rest.dropWhile (· ≠ '\n')
      | c :: rest =>
          if c = ' ' || c = '\t' then
            withoutBlanks fuel rest
          else
            t
      | [] => []

/- Go over blanks and a comment. -/
def skipBlanks : Reading Unit :=
  fun t => some ((), withoutBlanks t.length t)

/- A text without the empty lines that it starts with. -/
def withoutLines : (fuel : Nat) → Text → Text
  | 0, t => t
  | fuel + 1, t =>
      match withoutBlanks t.length t with
      | '\n' :: rest => withoutLines fuel rest
      | t => t

/- Go over blanks, comments and line ends. -/
def skipLines : Reading Unit :=
  fun t => some ((), withoutLines t.length t)

/- The word of plain characters that comes next. -/
def peekWord : Reading String :=
  fun t => some (String.ofList (t.takeWhile (!endsWord ·)), t)

end Shell

end Whittle

------------------------------------------------------------
-- Words And Scripts
------------------------------------------------------------

namespace Whittle

namespace Shell

/- The words that end a part of a script. -/
def closingWords : List String :=
  ["then", "do", "done", "fi", "else", "elif", "esac", "\x7d"]

/- The characters that a backslash quotes between double quotes. -/
def isEscapable
    (c : Char) : Bool :=
  c = '$' || c = '"' || c = '\\' || c = '\x60'

/- A parameter that is named by one character. -/
def isSpecial
    (c : Char) : Bool :=
  c.isDigit || "@*#?$!-".toList.contains c

/- The name of a parameter. -/
def readParameter : Reading String := do
  match ← peek with
  | none => failure
  | some c =>
      if c.isAlpha || c = '_' then
        let name ← takeAll isNameChar
        pure (String.ofList name)
      else if isSpecial c then
        skip 1
        pure (String.ofList [c])
      else
        failure

/- The sign between a parameter and a word that it needs. -/
def readSign : Reading Text := do
  let colon ← takeAll (· = ':')
  match ← peek with
  | some c =>
      if "-+=?".toList.contains c && colon.length ≤ 1 then
        skip 1
        pure (colon ++ [c])
      else if "%#".toList.contains c && colon.isEmpty then
        let sign ← takeAll (· = c)
        if sign.length ≤ 2 then pure sign else failure
      else
        failure
  | none => failure

mutual

/- What stands after a dollar sign. -/
def readDollar
    (isQuoted : Bool) : (fuel : Nat) → Reading Piece
  | 0 => failure
  | fuel + 1 => do
      if ← isNext "((" then
        skip 2
        let body ← readArithmetic fuel 0
        pure (.arithmetic body)
      else if ← isNext "(" then
        skip 1
        let body ← readScript fuel
        skipLines
        expect ")"
        pure (.output body isQuoted)
      else if ← isNext "\x7b#" then
        skip 2
        let name ← readParameter
        expect "\x7d"
        pure (.size name)
      else if ← isNext "\x7b" then
        skip 1
        let name ← readParameter
        if ← isNext "\x7d" then
          skip 1
          pure (.variable name isQuoted)
        else
          let sign ← readSign
          let word ← readPieces (· = '\x7d') isQuoted fuel
          expect "\x7d"
          pure (.fallback name sign word isQuoted)
      else
        match ← peek with
        | some c =>
            if c.isAlpha || c = '_' || isSpecial c then
              let name ← readParameter
              pure (.variable name isQuoted)
            else
              pure (.quoted ['$'])
        | none => pure (.quoted ['$'])

/- An arithmetic expression up to its closing brackets. -/
def readArithmetic : (fuel depth : Nat) → Reading (List Piece)
  | 0, _ => failure
  | fuel + 1, depth => do
      if depth = 0 then
        if ← isNext "))" then
          skip 2
          return []
      match ← peek with
      | none => failure
      | some c =>
          skip 1
          if c = '$' then
            let piece ← readDollar true fuel
            let more ← readArithmetic fuel depth
            pure (piece :: more)
          else
            let depth :=
              if c = '(' then
                depth + 1
              else if c = ')' then
                depth - 1
              else
                depth
            let more ← readArithmetic fuel depth
            pure (.quoted [c] :: more)

/- Pieces up to a character that ends them. -/
def readPieces
    (ends : Char → Bool)
    (isQuoted : Bool) : (fuel : Nat) → Reading (List Piece)
  | 0 => failure
  | fuel + 1 => do
      match ← peek with
      | none => pure []
      | some c =>
          if ends c then
            pure []
          else
            skip 1
            let piece ←
              if c = '$' then
                readDollar isQuoted fuel
              else if c = '\\' then
                readBackslash isQuoted
              else if isQuoted then
                pure (.quoted [c])
              else if c = '\'' then
                let t ← takeAll (· ≠ '\'')
                expect "'"
                pure (.quoted t)
              else if c = '"' then
                let inner ← readPieces (· = '"') true fuel
                expect "\""
                pure (.fallback "" [] (.quoted [] :: inner) true)
              else
                pure (.plain [c])
            let more ← readPieces ends isQuoted fuel
            pure (piece :: more)

/- What a backslash quotes. -/
def readBackslash
    (isQuoted : Bool) : Reading Piece := do
  match ← peek with
  | none => pure (.quoted ['\\'])
  | some c =>
      if c = '\n' then
        skip 1
        pure (.plain [])
      else if isQuoted && !isEscapable c then
        pure (.quoted ['\\'])
      else
        skip 1
        pure (.quoted [c])

def readWord : (fuel : Nat) → Reading Word
  | 0 => failure
  | fuel + 1 => readPieces endsWord false fuel

/- A redirection, if one comes next. -/
def readRedirect? : (fuel : Nat) → Reading (Option Redirect)
  | 0 => pure none
  | fuel + 1 => do
      let start ← get
      let digits ← takeAll Char.isDigit
      let number := (String.ofList digits).toNat?
      let target : Reading Word := do
        skipBlanks
        readWord fuel
      if ← isNext "<&" then
        skip 2
        let word ← target
        pure (some (.follows (number.getD 0) word))
      else if ← isNext ">&" then
        skip 2
        let word ← target
        pure (some (.follows (number.getD 1) word))
      else if ← isNext ">>" then
        skip 2
        let word ← target
        pure (some (.adds (number.getD 1) word))
      else if ← isNext "<<" then
        failure
      else if ← isNext "<" then
        skip 1
        let word ← target
        pure (some (.reads (number.getD 0) word))
      else if ← isNext ">" then
        skip 1
        if ← isNext "|" then
          skip 1
        let word ← target
        pure (some (.writes (number.getD 1) word))
      else
        set start
        pure none

/- All redirections that come next. -/
def readRedirects : (fuel : Nat) → Reading (List Redirect)
  | 0 => pure []
  | fuel + 1 => do
      skipBlanks
      match ← readRedirect? fuel with
      | none => pure []
      | some r =>
          let more ← readRedirects fuel
          pure (r :: more)

/- The words and redirections of a simple command. -/
def readParts :
    (fuel : Nat) → Reading (List Word × List Redirect)
  | 0 => failure
  | fuel + 1 => do
      skipBlanks
      match ← readRedirect? fuel with
      | some r =>
          let (words, more) ← readParts fuel
          pure (words, r :: more)
      | none =>
          match ← peek with
          | none => pure ([], [])
          | some c =>
              if endsWord c then
                pure ([], [])
              else
                let word ← readWord fuel
                let (more, redirects) ← readParts fuel
                pure (word :: more, redirects)

/- The assignments in front of a simple command. -/
def readAssignments :
    (fuel : Nat) → Reading (List (String × Word))
  | 0 => pure []
  | fuel + 1 => do
      skipBlanks
      let start ← get
      let name ← takeAll isNameChar
      if isName name && (← isNext "=") then
        skip 1
        let word ← readWord fuel
        let more ← readAssignments fuel
        pure ((String.ofList name, word) :: more)
      else
        set start
        pure []

/- A part of a script between two words. -/
def readBetween
    (closing : String) : (fuel : Nat) → Reading Script
  | 0 => failure
  | fuel + 1 => do
      let body ← readScript fuel
      skipLines
      expect closing
      pure body

/- What follows the condition of a conditional. -/
def readConditional : (fuel : Nat) → Reading Script
  | 0 => failure
  | fuel + 1 => do
      let condition ← readBetween "then" fuel
      let yes ← readScript fuel
      skipLines
      match ← peekWord with
      | "fi" =>
          skip 2
          pure (.conditional condition yes (.sequence []))
      | "else" =>
          skip 4
          let no ← readBetween "fi" fuel
          pure (.conditional condition yes no)
      | "elif" =>
          skip 4
          let no ← readConditional fuel
          pure (.conditional condition yes no)
      | _ => failure

/- Words up to the end of a line. -/
def readWords : (fuel : Nat) → Reading (List Word)
  | 0 => pure []
  | fuel + 1 => do
      skipBlanks
      match ← peek with
      | none => pure []
      | some c =>
          if endsWord c then
            pure []
          else
            let word ← readWord fuel
            let more ← readWords fuel
            pure (word :: more)

/- The patterns of an arm, with bars between them. -/
def readPatterns : (fuel : Nat) → Reading (List Word)
  | 0 => failure
  | fuel + 1 => do
      skipBlanks
      let word ← readWord fuel
      skipBlanks
      if ← isNext "|" then
        skip 1
        let more ← readPatterns fuel
        pure (word :: more)
      else
        expect ")"
        pure [word]

/- The arms of a choice. -/
def readArms :
    (fuel : Nat) → Reading (List (List Word × Script))
  | 0 => failure
  | fuel + 1 => do
      skipLines
      if (← peekWord) = "esac" then
        skip 4
        pure []
      else
        if ← isNext "(" then
          skip 1
        let patterns ← readPatterns fuel
        let body ← readScript fuel
        skipLines
        if ← isNext ";;" then
          skip 2
        let more ← readArms fuel
        pure ((patterns, body) :: more)

/- What a loop over words goes over, and what it does. -/
def readEach : (fuel : Nat) → Reading Script
  | 0 => failure
  | fuel + 1 => do
      skipBlanks
      let name ← takeAll isNameChar
      skipLines
      let isGiven := (← peekWord) = "in"
      let words ←
        if isGiven then
          skip 2
          some <$> readWords fuel
        else
          pure none
      skipBlanks
      if ← isNext ";" then
        skip 1
      skipLines
      expect "do"
      let body ← readBetween "done" fuel
      pure (.each (String.ofList name) words body)

/- A command that has parts of its own, or a simple one. -/
def readCommand : (fuel : Nat) → Reading Script
  | 0 => failure
  | fuel + 1 => do
      skipBlanks
      let compound (body : Reading Script) : Reading Script := do
        let body ← body
        let redirects ← readRedirects fuel
        if redirects.isEmpty then
          pure body
        else
          pure (.redirected body redirects)
      if ← isNext "(" then
        skip 1
        compound do
          let body ← readBetween ")" fuel
          pure (.isolated body)
      else
        match ← peekWord with
        | "\x7b" =>
            skip 1
            compound do
              let body ← readBetween "\x7d" fuel
              pure (.grouped body)
        | "if" =>
            skip 2
            compound (readConditional fuel)
        | "while" =>
            skip 5
            compound do
              let condition ← readBetween "do" fuel
              let body ← readBetween "done" fuel
              pure (.loop false condition body)
        | "until" =>
            skip 5
            compound do
              let condition ← readBetween "do" fuel
              let body ← readBetween "done" fuel
              pure (.loop true condition body)
        | "for" =>
            skip 3
            compound (readEach fuel)
        | "case" =>
            skip 4
            compound do
              skipBlanks
              let word ← readWord fuel
              skipLines
              expect "in"
              let arms ← readArms fuel
              pure (.choice word arms)
        | _ => readSimple fuel

/- A simple command, or the definition of a function. -/
def readSimple : (fuel : Nat) → Reading Script
  | 0 => failure
  | fuel + 1 => do
      let start ← get
      let name ← takeAll isNameChar
      skipBlanks
      let opens ← isNext "("
      if isName name && opens then
        skip 1
        skipBlanks
        expect ")"
        skipLines
        let body ← readCommand fuel
        pure (.define (String.ofList name) body)
      else
        set start
        let assignments ← readAssignments fuel
        let (words, redirects) ← readParts fuel
        if assignments.isEmpty && words.isEmpty &&
            redirects.isEmpty then
          failure
        else
          pure (.simple assignments words redirects)

/- Commands with bars between them. -/
def readPipeline : (fuel : Nat) → Reading Script
  | 0 => failure
  | fuel + 1 => do
      skipBlanks
      if (← peekWord) = "!" then
        skip 1
        let body ← readPipeline fuel
        pure (.negated body)
      else
        let first ← readCommand fuel
        skipBlanks
        if ← isNext "||" then
          pure first
        else if ← isNext "|" then
          skip 1
          skipLines
          let second ← readPipeline fuel
          pure (.pipeline first second)
        else
          pure first

/- Go on after a pipeline, as long as signs join them. -/
def readJoined
    (first : Script) : (fuel : Nat) → Reading Script
  | 0 => failure
  | fuel + 1 => do
      skipBlanks
      if ← isNext "&&" then
        skip 2
        skipLines
        let second ← readPipeline fuel
        readJoined (.both first second) fuel
      else if ← isNext "||" then
        skip 2
        skipLines
        let second ← readPipeline fuel
        readJoined (.either first second) fuel
      else
        pure first

/- The commands up to the end of a part. -/
def readCommands : (fuel : Nat) → Reading (List Script)
  | 0 => failure
  | fuel + 1 => do
      skipLines
      match ← peek with
      | none => pure []
      | some c =>
          let word ← peekWord
          let isOver :=
            c = ')' || (← isNext ";;") || closingWords.contains word
          if isOver then
            pure []
          else
            let first ← readPipeline fuel
            let command ← readJoined first fuel
            skipBlanks
            if ← isNext ";;" then
              pure [command]
            else
              if ← isNext ";" then
                skip 1
              let more ← readCommands fuel
              pure (command :: more)

/- A script up to the end of a part. -/
def readScript : (fuel : Nat) → Reading Script
  | 0 => failure
  | fuel + 1 => do
      let commands ← readCommands fuel
      pure (.sequence commands)

end

/- The script that a text writes. -/
def Script.ofText?
    (t : Text) : Option Script :=
  match readScript (4 * t.length + 16) t with
  | some (script, []) => some script
  | _ => none

end Shell

end Whittle
