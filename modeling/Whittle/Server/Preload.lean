import Whittle.Failure
import Whittle.Process

/-
  Making the object that turns a program into a fork server.

  Key definitions include:
    * `Compilation`
    * `compilePreload`
-/

------------------------------------------------------------
-- Compilations
------------------------------------------------------------

namespace Whittle

/-
  What making an object leaves: its temporary files, and the
  path of the object.
-/
structure Compilation where
  files : Disk
  result : Except ServerError String

/- The temporary file that holds the source of the object. -/
def preloadSource : String :=
  "fork-server-preload.c"

/- The temporary file that becomes the object. -/
def preloadObject : String :=
  "fork-server-preload.so"

/- The command that makes the object. -/
def compilerCommand
    (compiler : String) : List String :=
  [compiler, "--shared", "-fPIC", preloadSource, "-o",
    preloadObject]

/-
  Make the object with a compiler.  Both temporary files are
  there even if that fails.
-/
def compilePreload
    (run : List String → Except Failure Finished)
    (compiler : String) : Compilation where
  files := Disk.ofFiles [(preloadSource, []), (preloadObject, [])]
  result :=
    match run (compilerCommand compiler) with
    | .error failure =>
        .error (.cannotCompile (failure.message?.getD ""))
    | .ok f =>
        if f.status = 0 then
          .ok preloadObject
        else
          .error
            (.compilerFailed f.status (String.ofList (f.out ++ f.err)))

end Whittle
