import Turnstile.Redis.Client
import Turnstile.Session

/-!
# Sessions with a Redis server

A session with a limiter on a Redis server, in which the server can be tampered with: its clock, its
keys, the commands that it answers, and whether it is there at all.
-/

namespace Turnstile

/-- Something that is done in a session with a Redis server. -/
inductive RedisAction where
  | common (a : Action)
  | tick (ms : Nat)
  | store (key value : String) (ttl : Option Nat)
  | read (key : String)
  | flushScripts
  | stall (commands : List String)
  | refuse (commands : List String)
  | down
  | up
  | drop
deriving Repr

inductive RedisResult where
  | common (r : Result)
  /-- What is under a key, and the milliseconds that it has left. -/
  | entry (e : Option (String × Int))
deriving Repr

structure RedisReport where
  result : RedisResult
  commands : List String
  accepted : Nat
  idle : Nat
  permits : Nat
  outage : Bool
  totals : Totals
deriving Repr

namespace RedisSession

open Redis (Client Server)

/-- A session with a pool of these settings. There is none with a pool that is too large. -/
def begin? (client : Client) (settings : PoolSettings) : Option (Session Client) :=
  if PoolSettings.maxCapacity < settings.capacity then none
  else some (.fresh (.fresh client settings))

/-- Changes the clients' side. -/
def tend (s : Session Client) (change : Client → Client) : Session Client :=
  { s with limiter := { s.limiter with backend := change s.limiter.backend } }

def tamper (s : Session Client) (change : Server → Server) : Session Client × RedisResult :=
  (tend s fun c => { c with server := change c.server }, .common .done)

def stored? (s : Server) (key : String) : Option (String × Int) :=
  (s.keys.get? s.clock key).map fun e => (e.text, s.keys.ttl s.clock key)

/-- Carries an action out, without what follows from it. -/
def act? (s : Session Client) : RedisAction → Option (Session Client × RedisResult)
  | .common a => (s.act? Client.backend a).map fun (s, r) => (s, .common r)
  | .tick ms => some (tamper s fun v => { v with clock := v.clock + ms })
  | .store key value ttl =>
    some (tamper s fun v =>
      { v with keys := v.keys.put key ⟨value, ttl.map fun ms => v.clock + ms⟩ })
  | .read key => some (s, .entry (stored? s.limiter.backend.server key))
  | .flushScripts => some (tamper s fun v => { v with hasScript := false })
  | .stall commands => some (tamper s fun v => { v with stalled := commands })
  | .refuse commands => some (tamper s fun v => { v with failing := commands })
  | .down =>
    let (s, r) := tamper s fun v => { v with up := false }
    some (tend s Client.drop, r)
  | .up => some (tamper s fun v => { v with up := true })
  | .drop => some (tend s Client.drop, .common .done)

/-- What can be seen now; `mark` is how many commands had been received before. -/
def report (s : Session Client) (mark : Nat) (result : RedisResult) : RedisReport :=
  let server := s.limiter.backend.server
  { result
    commands :=
      (server.received.take (server.received.length - mark)).reverse.filterMap Redis.Request.line?
    accepted := server.accepted
    idle := s.limiter.pool.idle.length
    permits := s.limiter.pool.free
    outage := s.limiter.flag.up
    totals := s.limiter.totals }

def run? (s : Session Client) : List RedisAction → Option (List RedisReport)
  | [] => some []
  | a :: rest => do
    let mark := s.limiter.backend.server.received.length
    let (s, result) ← act? s a
    let s := s.calm Client.backend
    return report s mark result :: (← run? s rest)

end RedisSession

end Turnstile
