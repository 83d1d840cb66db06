import Turnstile.Limiter.Basic

/-!
# Cancelling and closing

A task that is cancelled stops at the stage at which it stands. What it has borrowed goes back to
the pool as it is; a connection that it was opening or pinging is dropped, and its permit given
back. A task that counts a call for it is a task of its own and goes on.
-/

namespace Turnstile

namespace Limiter

variable {σ : Type}

/-- Takes back what a task at a stage has in hand. -/
def reclaim (s : Limiter σ) (t : TaskId) : Stage → Limiter σ
  | .queued .. => { s with pool := s.pool.leave t }
  | .granted _ | .probing .. | .opening .. | .sweeping .. => s.freePermit
  | .evaluating _ _ lease _ | .verifying lease _ | .holding lease _ _ _ => s.giveBack lease
  | .fresh _ | .awaiting .. | .joining _ | .sleeping _ | .calling _ | .resting .. | .done _
  | .cancelled => s

/-- Cancels a task. One that is over stays as it is. -/
def cancel (s : Limiter σ) (t : TaskId) : Limiter σ :=
  match s.stage? t with
  | none => s
  | some stage =>
    if stage.isOver then s
    else
      let s := { s with ready := s.ready.erase t }.setStage t .cancelled
      (s.reclaim t stage).wakeAll (s.watchers t)

/-- Closes the pool. Whoever stands in the line learns of it. -/
def close (s : Limiter σ) : Limiter σ :=
  let (pool, waiting) := s.pool.close
  { s with pool }.wakeAll waiting

end Limiter

end Turnstile
