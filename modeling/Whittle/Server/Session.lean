import Whittle.Failure
import Whittle.Process
import Whittle.Server.Stream
import Whittle.Text.Digit

/-
  Sessions with a fork server.

  Key definitions include:
    * `serverEnvironment`
    * `listedInputs`
    * `Connection`
    * `ServerSession`
    * `ServerSession.start`
    * `ServerSession.runChild`

  A server is a process that answers each request with an
  exit code on one stream and an empty reply on the other.
-/

------------------------------------------------------------
-- The Environment Of A Server
------------------------------------------------------------

namespace Whittle

/- The variable that tells a server how long a child may run. -/
def timeoutVariable : String :=
  "__SCM_TIMEOUT"

/- The variable that holds the path of an input. -/
def inputVariable
    (i : Nat) : String :=
  "__SCM_INPUT_" ++ toString i

/-
  An environment with the timeout and the paths of the
  inputs, numbered from zero.
-/
def serverEnvironment
    (inputs : List String)
    (timeout : String)
    (base : Environment) : Environment :=
  inputs.zipIdx.foldl
    (fun e (path, i) => e.set (inputVariable i) path)
    (base.set timeoutVariable timeout)

/-
  The paths of the inputs from a number on, up to the first
  one that is missing.  `limit` bounds how many are read.
-/
def inputsFrom
    (e : Environment) : (limit : Nat) → Nat → List String
  | 0, _ => []
  | limit + 1, i =>
      match e.get? (inputVariable i) with
      | none => []
      | some path => path :: inputsFrom e limit (i + 1)

/-
  All inputs that an environment lists.  It has no more of
  them than it has variables.
-/
def listedInputs
    (e : Environment) : List String :=
  inputsFrom e e.length 0

/- The number of inputs that a server has room for. -/
def inputLimit : Nat :=
  1024

/- The inputs that a server finds when it starts. -/
def watchedInputs
    (e : Environment) : List String :=
  inputsFrom e inputLimit 0

end Whittle

------------------------------------------------------------
-- Connections
------------------------------------------------------------

namespace Whittle

/-
  The two streams of a running server, and how it goes on
  after a request, if it still takes requests.
-/
structure Connection where
  out : Stream
  err : Stream
  resume : Option (Disk → Process)

namespace Connection

/- A connection after what a process has written. -/
def afterProcess
    (out err : Stream) : Process → Connection
  | .ended o e _ => ⟨out.push o, err.push e, none⟩
  | .waiting o e resume => ⟨out.push o, err.push e, some resume⟩

/- What has been read from both streams of a server. -/
structure Replies where
  out : Option Text
  outRows : List Text
  err : Option Text
  errRows : List Text

/-
  Read one reply from each stream.  A server that waits before
  it has replied is read to the end of what it has written.
-/
def readReplies
    (c : Connection) : Replies × Connection :=
  let (out, outRows, outLeft) := c.out.readReply
  let (err, errRows, errLeft) := c.err.readReply
  (⟨out, outRows, err, errRows⟩,
    { c with out := outLeft, err := errLeft })

namespace Replies

/- The error that tells of the replies. -/
def invalid
    (r : Replies) : ServerError :=
  .invalidReply (r.out.map String.ofList) (r.err.map String.ofList)

/- The replies of a server that has started properly. -/
def isGreeting
    (r : Replies) : Bool :=
  r.out = some "INIT".toList && r.err = some [] &&
    r.outRows.isEmpty && r.errRows.isEmpty

/- What is printed when a server has not started properly. -/
def complaint
    (r : Replies) : List String :=
  ["Fork server did not start properly, check your command line.",
    "Possible causes:",
    "  * the checked process tried to spawn a thread or a " ++
      "subprocess",
    "  * the checked process has not touched any input file",
    "  * the checked process printed something before touching " ++
      "its input",
    "STDOUT:"] ++ r.outRows.map String.ofList ++ ["STDERR:"] ++
    r.errRows.map String.ofList

end Replies

end Connection

end Whittle

------------------------------------------------------------
-- Sessions
------------------------------------------------------------

namespace Whittle

/- A connection, if there is one, and the number of requests. -/
structure ServerSession where
  connection : Option Connection
  children : Nat

namespace ServerSession

/- A session that has not started. -/
def initial : ServerSession :=
  ⟨none, 0⟩

/- End a session. -/
def close
    (s : ServerSession) : ServerSession :=
  { s with connection := none }

/-
  Connect to a process that has just been started.  The lines
  tell what went wrong.
-/
def start
    (p : Process)
    (s : ServerSession) :
    Except ServerError Unit × ServerSession × List String :=
  let (r, c) :=
    (Connection.afterProcess .empty .empty p).readReplies
  if r.isGreeting then
    (.ok (), { s with connection := some c }, [])
  else
    (.error r.invalid, s.close, r.complaint)

/- An exit code and the rows of both streams. -/
structure Answer where
  code : Int
  out : List Text
  err : List Text
deriving DecidableEq, Repr, Inhabited

/- What the replies to a request say. -/
def answerOf
    (r : Connection.Replies) : Except ServerError Answer :=
  match r.out, r.err with
  | some out, some err =>
      if err.isEmpty then
        match Text.readInteger? out with
        | some code => .ok ⟨code, r.outRows, r.errRows⟩
        | none => .error r.invalid
      else
        .error r.invalid
  | _, _ => .error .terminated

/- Let the server run one child. -/
def runChild
    (d : Disk)
    (s : ServerSession) :
    Except ServerError Answer × ServerSession :=
  match s.connection with
  | none => (.error .notRunning, s)
  | some c =>
      match c.resume with
      | none => (.error .terminated, s)
      | some resume =>
          let (r, c) :=
            (Connection.afterProcess c.out c.err
              (resume d)).readReplies
          (answerOf r, ⟨some c, s.children + 1⟩)

end ServerSession

end Whittle
