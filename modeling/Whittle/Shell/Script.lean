import Whittle.Text.Basic

/-
  Shell scripts, as far as the shell that stands for `/bin/sh`
  on the command line of this library runs them.

  Key definitions include:
    * `Piece`
    * `Redirect`
    * `Script`
-/

------------------------------------------------------------
-- Scripts
------------------------------------------------------------

namespace Whittle

namespace Shell

mutual

/-
  A piece of a word.
    * `plain` and `quoted` stand for themselves.
    * `variable` is the value of a variable.
    * `size` is the number of its characters.
    * `fallback` is another word, depending on the variable.
    * `output` is what a script writes.
    * `arithmetic` is the value of an expression.
  What is quoted is not split into words.
-/
inductive Piece where
| plain (t : Text)
| quoted (t : Text)
| variable (name : String) (isQuoted : Bool)
| size (name : String)
| fallback (name : String) (sign : Text) (word : List Piece)
    (isQuoted : Bool)
| output (body : Script) (isQuoted : Bool)
| arithmetic (body : List Piece)

/-
  Where a stream with a number leads to: a file that is read,
  written or added to, or another stream.
-/
inductive Redirect where
| reads (stream : Nat) (target : List Piece)
| writes (stream : Nat) (target : List Piece)
| adds (stream : Nat) (target : List Piece)
| follows (stream : Nat) (target : List Piece)

/- A script. -/
inductive Script where
| simple (assignments : List (String × List Piece))
    (words : List (List Piece)) (redirects : List Redirect)
| sequence (parts : List Script)
| both (first second : Script)
| either (first second : Script)
| negated (body : Script)
| pipeline (first second : Script)
| grouped (body : Script)
| isolated (body : Script)
| redirected (body : Script) (redirects : List Redirect)
| conditional (condition yes no : Script)
| loop (isUntil : Bool) (condition body : Script)
| each (name : String) (words : Option (List (List Piece)))
    (body : Script)
| choice (word : List Piece)
    (arms : List (List (List Piece) × Script))
| define (name : String) (body : Script)

end

/- A word is a list of pieces. -/
abbrev Word :=
  List Piece

instance : Inhabited Script :=
  ⟨.sequence []⟩

end Shell

end Whittle
