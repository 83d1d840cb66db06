import Turnstile.Memory
import Turnstile.Session

/-!
# Sessions with the store in memory

A session in which the store's switches can be turned and its windows looked at. After every action
a report tells what came of it and how things stand.
-/

namespace Turnstile

/-- Something that is done in a session with the store in memory. -/
inductive MemoryAction where
  | common (a : Action)
  | turn (switches : List Switch)
  | counter (key : String)
  | cleanup
deriving Repr

inductive MemoryResult where
  | common (r : Result)
  | counter (n : Option Nat)
  | removed (n : Nat)
deriving Repr

structure MemoryReport where
  result : MemoryResult
  clock : Time
  opened : Nat
  windows : Nat
  idle : Nat
  permits : Nat
  closed : Bool
  flag : Flag
  totals : Totals
  running : List String
  logs : List String
deriving Repr

namespace MemorySession

/-- A session with a pool of these settings, whose flag may be up from the start. There is none with
a pool that is too large. -/
def begin? (settings : PoolSettings) (reason : Option String) : Option (Session Memory) :=
  if PoolSettings.maxCapacity < settings.capacity then none
  else
    let limiter := Limiter.fresh Memory.fresh settings
    some (.fresh (match reason with
      | some reason => (limiter.raise reason).1
      | none => limiter))

def tend (s : Session Memory) (change : Memory → Memory) : Session Memory :=
  { s with limiter := { s.limiter with backend := change s.limiter.backend } }

/-- Carries an action out, without what follows from it. -/
def act? (s : Session Memory) : MemoryAction → Option (Session Memory × MemoryResult)
  | .common a => (s.act? Memory.backend a).map fun (s, r) => (s, .common r)
  | .turn switches => some (tend s fun m => switches.foldl Memory.turn m, .common .done)
  | .counter key =>
    some (s, .counter (s.limiter.backend.store.counter? s.limiter.clock key))
  | .cleanup =>
    let (store, removed) := s.limiter.backend.store.cleanup s.limiter.clock
    some (tend s fun m => { m with store }, .removed removed)

/-- What can be seen now; `mark` is how long the journal was before. -/
def report (s : Session Memory) (mark : Nat) (result : MemoryResult) : MemoryReport where
  result
  clock := s.limiter.clock
  opened := s.limiter.opened
  windows := s.limiter.backend.store.size
  idle := s.limiter.pool.idle.length
  permits := s.limiter.pool.free
  closed := s.limiter.pool.closed
  flag := s.limiter.flag
  totals := s.limiter.totals
  running := s.running
  logs := s.logsSince mark

/-- Carries an action out and reports; `mark` is how long the journal was before. -/
def step? (s : Session Memory) (mark : Nat) (a : MemoryAction) :
    Option (Session Memory × MemoryReport) :=
  (act? s a).map fun (s, result) =>
    let s := s.calm Memory.backend
    (s, report s mark result)

/-- Carries actions out one after another, given how long the journal was before. -/
def runFrom? (s : Session Memory) (mark : Nat) :
    List MemoryAction → Option (Session Memory × List MemoryReport)
  | [] => some (s, [])
  | a :: rest => do
    let (s, r) ← step? s mark a
    let (s, reports) ← runFrom? s s.limiter.journal.length rest
    return (s, r :: reports)

/-- Carries actions out one after another. What was written down before belongs to the first. -/
def run? (s : Session Memory) (actions : List MemoryAction) :
    Option (Session Memory × List MemoryReport) :=
  runFrom? s 0 actions

end MemorySession

end Turnstile
