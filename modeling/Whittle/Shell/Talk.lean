import Whittle.Process

/-
  Work that may stop to wait for a request.

  Key definitions include:
    * `Talk`
    * `Talk.bind`
    * `Talk.process`
-/

------------------------------------------------------------
-- Talks
------------------------------------------------------------

namespace Whittle

/-
  Work that ends with a result, or waits after it has written
  to two streams and goes on with the files as they are then.
-/
inductive Talk (α : Type) where
| done (result : α)
| waiting (out err : Bytes) (resume : Disk → Talk α)

namespace Talk

/- Go on with the result of some work. -/
def bind
    {α β : Type} : Talk α → (α → Talk β) → Talk β
  | done result, next => next result
  | waiting out err resume, next =>
      waiting out err fun d => bind (resume d) next

instance : Monad Talk where
  pure := done
  bind := bind

/- The process that does some work and then ends. -/
def process : Talk (Bytes × Bytes × Int) → Process
  | done (out, err, status) => .ended out err status
  | waiting out err resume =>
      .waiting out err fun d => process (resume d)

end Talk

end Whittle
