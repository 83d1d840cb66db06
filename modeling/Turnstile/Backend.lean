import Turnstile.Event

/-!
# What a store offers

A store is used through connections. It is asked to open one, to answer a ping on one, and to count
a call on one. A request is first started, which tells how long its answer takes, and answered when
that time is over; what the store does to its own state happens when it answers.
-/

namespace Turnstile

inductive Command where
  | connect
  | ping
  | count (key : String) (limit windowMs : Nat)
deriving DecidableEq, Repr

/-- How long an answer takes. -/
inductive Delay where
  | none
  | ms (n : Nat)
  | never
deriving DecidableEq, Repr

def Delay.ofMs (n : Nat) : Delay := if n = 0 then .none else .ms n

/-- What a request is answered with: the answer to a counted call, and zero for the others. -/
abbrev Reply := Except Fault Nat

/-- How a store with states of type `σ` takes and answers requests. -/
structure Backend (σ : Type) where
  /-- Takes a request on a connection. -/
  start : σ → ConnId → Command → σ × Delay
  /-- Answers a request that was taken. -/
  finish : σ → Time → ConnId → Command → σ × Reply

end Turnstile
