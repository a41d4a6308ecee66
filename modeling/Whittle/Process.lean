import Whittle.Disk.Basic

/-
  Processes as far as they can be talked to.

  Key definitions include:
    * `Process`
    * `exitCode`
    * `Finished`
    * `Environment`
    * `Environment.set`
-/

------------------------------------------------------------
-- Processes
------------------------------------------------------------

namespace Whittle

/-
  What a process does until it ends or waits for its input.
    * `ended` : it has written to its two streams and ended,
      or it reads no input any more.
    * `waiting` : it has written to its two streams and waits.
      What it does after that may depend on the files as they
      are then.
-/
inductive Process where
| ended (out err : Bytes) (status : Int)
| waiting (out err : Bytes) (resume : Disk → Process)

/-
  A process that a signal has ended has a negative status.
  Its exit code is the one that a shell reports.
-/
def exitCode
    (status : Int) : Int :=
  if status < 0 then 128 - status else status

/- A process that has ended: its status and what it wrote. -/
structure Finished where
  status : Int
  out : Text
  err : Text
deriving DecidableEq, Repr, Inhabited

end Whittle

------------------------------------------------------------
-- Environments
------------------------------------------------------------

namespace Whittle

/- The variables of a process with their values. -/
abbrev Environment :=
  List (String × String)

namespace Environment

/- The value of a variable. -/
def get?
    (e : Environment)
    (name : String) : Option String :=
  e.lookup name

/- Give a variable a value. -/
def set
    (e : Environment)
    (name value : String) : Environment :=
  match e with
  | [] => [(name, value)]
  | (n, v) :: rest =>
      if n = name then
        (name, value) :: rest
      else
        (n, v) :: set rest name value

end Environment

end Whittle
