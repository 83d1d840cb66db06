import Turnstile.Redis.Keyspace

/-!
# The counting script

One script counts a call on the server. It adds one to the counter; the first call of a counter sets
its deadline. A call over the limit is answered with the time that the counter has left, at least a
millisecond, and one within the limit with zero. A counter over its limit that has no deadline is
given one, so that it cannot stay for ever.
-/

namespace Turnstile.Redis

namespace Keyspace

/-- The largest number of milliseconds that a key can be given at an instant. -/
def longest (now : Nat) : Nat := 9223372036854775807 - now

/-- Answers a call that was over the limit. -/
def overLimit (k : Keyspace) (now : Nat) (key : String) (windowMs : Nat) : Keyspace × Int :=
  let left := k.ttl now key
  let (k, left) := if left < 0 then (k.expire now key windowMs, (windowMs : Int)) else (k, left)
  (k, if left = 0 then 1 else left)

/-- Counts a call on a key and answers it. There is no answer on a counter that is no integer and
for a window that is too long; the call is counted all the same where it can be. -/
def countCall (k : Keyspace) (now : Nat) (key : String) (limit windowMs : Nat) :
    Keyspace × Option Int :=
  match k.incr? now key with
  | none => (k, none)
  | some (k, current) =>
    let setsDeadline := current = 1 ∨ (limit < current ∧ k.ttl now key < 0)
    if setsDeadline ∧ longest now < windowMs then (k, none)
    else
      let k := if current = 1 then k.expire now key windowMs else k
      if limit < current then
        let (k, left) := k.overLimit now key windowMs
        (k, some left)
      else (k, some 0)

/-- The answer as the caller reads it: less than nothing is nothing. -/
def remainingMs (answer : Int) : Nat := answer.toNat

end Keyspace

end Turnstile.Redis
