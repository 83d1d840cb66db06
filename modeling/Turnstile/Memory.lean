import Turnstile.Backend
import Turnstile.Window.Store

/-!
# The store in memory

A store of windows inside the process, behind switches: it can be out of reach, it can refuse pings
or scripts, and it can take its time. How long a request takes is settled when it is started, and
whether it succeeds when it is answered.
-/

namespace Turnstile

structure Memory where
  store : Store
  reachable : Bool
  failPings : Bool
  failScripts : Bool
  latencyMs : Nat
  pingLatencyMs : Nat
deriving DecidableEq, Repr

/-- A change of one switch. Latencies are in microseconds. -/
inductive Switch where
  | reachable (on : Bool)
  | failPings (on : Bool)
  | failScripts (on : Bool)
  | latency (us : Nat)
  | pingLatency (us : Nat)
deriving DecidableEq, Repr

namespace Memory

def fresh : Memory := ⟨.empty, true, false, false, 0, 0⟩

/-- Turns a switch. A latency counts in whole milliseconds. -/
def turn (m : Memory) : Switch → Memory
  | .reachable on => { m with reachable := on }
  | .failPings on => { m with failPings := on }
  | .failScripts on => { m with failScripts := on }
  | .latency us => { m with latencyMs := us / usPerMs }
  | .pingLatency us => { m with pingLatencyMs := us / usPerMs }

/-- The time that a request takes. Connections are opened at once. -/
def delay (m : Memory) : Command → Delay
  | .connect => .none
  | .ping => .ofMs m.pingLatencyMs
  | .count .. => .ofMs m.latencyMs

/-- Why nothing can be asked of a store that is out of reach. -/
def refused : Fault := .unavailable "connection refused"

def pingFailed : Fault := .unavailable "PING failed"

def scriptFailed : Fault := .unavailable "script error"

def answer (m : Memory) (now : Time) (command : Command) : Memory × Reply :=
  if !m.reachable then (m, .error refused)
  else
    match command with
    | .connect => (m, .ok 0)
    | .ping => (m, if m.failPings then .error pingFailed else .ok 0)
    | .count key limit windowMs =>
      if m.failScripts then (m, .error scriptFailed)
      else
        let (store, remainingMs) := m.store.count now key limit windowMs
        ({ m with store }, .ok remainingMs)

def backend : Backend Memory where
  start m _ command := (m, m.delay command)
  finish m now _ command := m.answer now command

/-! ## Laws -/

/-- A request that fails leaves the windows as they were. -/
theorem answer_of_error {m m' : Memory} {now : Time} {command : Command} {f : Fault}
    (h : m.answer now command = (m', .error f)) : m' = m := by
  unfold answer at h
  split at h
  · exact (Prod.mk.inj h).1.symm
  · cases command with
    | connect => cases h
    | ping => exact (Prod.mk.inj h).1.symm
    | count key limit windowMs =>
      simp only at h
      split at h
      · exact (Prod.mk.inj h).1.symm
      · cases h

end Memory

end Turnstile
