import Turnstile.Redis.Script

/-!
# The server

A Redis server as far as a limiter uses it: it can be asked for a password and a database, answers
pings, and runs the counting script once it has been given it. Commands can be made to fail, or to
get no answer at all, by their names.
-/

namespace Turnstile.Redis

inductive Request where
  | auth (password : String)
  | setInfo
  | select (db : Int)
  | ping
  | evalSha (key : String) (limit windowMs : Nat)
  | scriptLoad
deriving DecidableEq, Repr

namespace Request

def name : Request → String
  | .auth _ => "AUTH"
  | .setInfo => "CLIENT"
  | .select _ => "SELECT"
  | .ping => "PING"
  | .evalSha .. => "EVALSHA"
  | .scriptLoad => "SCRIPT"

/-- The command as it is written down, without the name of the script. What a client tells about
itself is not written down. -/
def line? : Request → Option String
  | .auth password => some ("AUTH " ++ password)
  | .setInfo => none
  | .select db => some ("SELECT " ++ toString db)
  | .ping => some "PING"
  | .evalSha key limit windowMs =>
    some ("EVALSHA 1 " ++ key ++ " " ++ toString limit ++ " " ++ toString windowMs)
  | .scriptLoad => some "SCRIPT LOAD"

end Request

inductive Response where
  | ok
  | number (n : Int)
  | noScript
  | refused
  | silence
deriving DecidableEq, Repr

structure Server where
  keys : Keyspace
  /-- Milliseconds on the server's own clock. -/
  clock : Nat
  password : Option String
  hasScript : Bool
  /-- The names of the commands that get no answer. -/
  stalled : List String
  /-- The names of the commands that are refused. -/
  failing : List String
  up : Bool
  /-- How many connections were accepted. -/
  accepted : Nat
  /-- The commands that were received, the last one in front. -/
  received : List Request
deriving Repr

namespace Server

def fresh (password : Option String) : Server where
  keys := .empty .passed
  clock := 0
  password
  hasScript := false
  stalled := []
  failing := []
  up := true
  accepted := 0
  received := []

/-- The numbers of databases run from zero to this. -/
def lastDb : Int := 15

/-- Carries a command out for a client that has or has not shown the password. -/
def execute (s : Server) (trusted : Bool) : Request → Server × Response
  | .auth password => (s, if s.password = some password then .ok else .refused)
  | .setInfo => (s, .ok)
  | .select db => (s, if trusted ∧ 0 ≤ db ∧ db ≤ lastDb then .ok else .refused)
  | .ping => (s, if trusted then .ok else .refused)
  | .scriptLoad => if trusted then ({ s with hasScript := true }, .ok) else (s, .refused)
  | .evalSha key limit windowMs =>
    if !trusted then (s, .refused)
    else if !s.hasScript then (s, .noScript)
    else
      match s.keys.countCall s.clock key limit windowMs with
      | (keys, some n) => ({ s with keys }, .number n)
      | (keys, none) => ({ s with keys }, .refused)

def receive (s : Server) (trusted : Bool) (r : Request) : Server × Response :=
  let s := { s with received := r :: s.received }
  if s.stalled.contains r.name then (s, .silence)
  else if s.failing.contains r.name then (s, .refused)
  else s.execute trusted r

end Server

end Turnstile.Redis
