/-!
# Faults

Why a count could not be had. The limiter absorbs every fault and lets the call pass, so a fault
is seen only in the journal, in the state of the degraded flag and by those who talk to the pool.
-/

namespace Turnstile

/-- What went wrong between the limiter and its store. -/
inductive Fault where
  /-- No connection came free in time. -/
  | poolExhausted
  /-- The store did not answer a connection attempt in time. -/
  | connectTimeout
  /-- The store did not answer a command in time. -/
  | commandTimeout
  /-- The pool has been closed. -/
  | poolClosed
  /-- The store cannot be used, and why. -/
  | unavailable (reason : String)
  /-- The store refused or lost a command. -/
  | evaluation (timedOut : Bool) (reason : String)
deriving DecidableEq, Repr

namespace Fault

def message : Fault → String
  | .poolExhausted =>
    "cache pool exhausted: no connection freed up within the connect timeout"
  | .connectTimeout => "timed out connecting to the cache backend"
  | .commandTimeout => "cache command timed out"
  | .poolClosed => "cache pool is closed"
  | .unavailable reason => "cache backend unavailable: " ++ reason
  | .evaluation _ reason => "cache evaluation failed: " ++ reason

/-- The faults after which a command is worth a second try. -/
def isTimeout : Fault → Bool
  | .commandTimeout => true
  | .evaluation timedOut _ => timedOut
  | _ => false

end Fault

end Turnstile
