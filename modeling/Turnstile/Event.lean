import Turnstile.Fault
import Turnstile.Verdict

/-!
# The journal

What happens is written down as events, in the order in which it happens. Some events are also log
lines, with a level and a text; the others record what the store counted, which connections were
opened or answered, and what was decided.
-/

namespace Turnstile

/-- Microseconds on the clock. -/
abbrev Time := Nat

/-- The number of a connection, in the order of opening. -/
abbrev ConnId := Nat

/-- The number of a task, in the order of starting. -/
abbrev TaskId := Nat

inductive Level where
  | debug
  | info
  | warn
  | error
deriving DecidableEq, Repr

def Level.name : Level → String
  | .debug => "DEBUG"
  | .info => "INFO"
  | .warn => "WARN"
  | .error => "ERROR"

inductive Event where
  /-- The degraded flag went up, and why. -/
  | degraded (reason : String)
  /-- The degraded flag went down. -/
  | recovered
  /-- An idle connection was found broken when somebody wanted it. -/
  | evicted
  /-- A sweep found `failed` of `total` idle connections broken. -/
  | sweepEvicted (failed total : Nat)
  /-- The health checker ended. -/
  | checkerStopped
  /-- A command timed out and is tried again. -/
  | retrying (key : String)
  /-- A call was over its limit. -/
  | limitHit (identity service : String) (retryAfterSeconds : Nat)
  /-- A check could not be carried out. -/
  | checkFailed (service : String) (fault : Fault)
  /-- The store counted a call of a task and answered. -/
  | counted (task : TaskId) (key : String) (limit windowMs : Nat) (time : Time)
    (remainingMs : Nat)
  /-- A connection was opened. -/
  | opened (conn : ConnId) (time : Time)
  /-- A connection answered a ping. -/
  | pinged (conn : ConnId) (time : Time)
  /-- A task's store command ended, on that connection and that way. -/
  | commanded (task : TaskId) (conn : ConnId) (outcome : Except Fault Nat)
  /-- A task came to a decision, from the outcome of the task that counted its call. -/
  | decided (task child : TaskId) (service : String) (decision : Decision)
deriving Repr

namespace Event

/-- Level and text of the events that are log lines. -/
def log? : Event → Option (Level × String)
  | .degraded reason =>
    some (.warn, "Cache backend degraded, rate limiting fails open: " ++ reason)
  | .recovered => some (.info, "Cache backend recovered, rate limiting enforced again")
  | .evicted => some (.debug, "Evicting idle cache connection that failed its health check")
  | .sweepEvicted failed total =>
    some (.warn, "Health check evicted " ++ toString failed ++ " of " ++ toString total
      ++ " idle cache connections")
  | .checkerStopped => some (.debug, "Cache pool health checker stopped")
  | .retrying key => some (.warn, "Rate limit evaluation for " ++ key ++ " timed out, retrying")
  | .limitHit identity service seconds =>
    some (.debug, "Rate limit hit for " ++ identity ++ " on " ++ service ++ ", retry after "
      ++ toString seconds ++ "s")
  | .checkFailed service fault =>
    some (.error, "Rate limiting check failed for " ++ service ++ ": " ++ fault.message
      ++ ". Allowing request to proceed.")
  | _ => none

def line? (e : Event) : Option String := e.log?.map fun (level, text) => level.name ++ " " ++ text

end Event

end Turnstile
