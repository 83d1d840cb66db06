import Turnstile.Backend
import Turnstile.Redis.Server
import Turnstile.Redis.Url

/-!
# The store on a Redis server

How a limiter's requests reach a server. A connection is opened with a handshake, all of whose
commands are sent at once: the password if there is one, what the client is, and the database if it
is not the first. A call is counted by the script; a server that does not have it is given it, and
the command is sent again.

An answer that does not come in time is a timeout, with one limit for opening and one for commands.
-/

namespace Turnstile.Redis

/-- A server, whether there is a way to it, and the clients' side of the connections: which of them
are open, whether the password was shown on them, and the answers that are under way. -/
structure Client where
  server : Server
  linked : Bool
  url : RedisUrl
  connectTimeoutMs : Nat
  commandTimeoutMs : Nat
  connections : Table ConnId Bool
  replies : Table ConnId Reply
deriving Repr

namespace Client

def unusable : Fault := .unavailable ""

def refused : Fault := .evaluation false ""

def unanswered : Fault := .evaluation true ""

def handshake (url : RedisUrl) : List Request :=
  (url.password.map Request.auth).toList ++ [.setInfo, .setInfo]
    ++ (if url.db = 0 then [] else [.select url.db])

/-- The commands whose refusal does not matter. -/
def isOptional (r : Request) : Bool := r = .setInfo

inductive Greeting where
  | welcome
  | refused
  | silence
deriving DecidableEq, Repr

/-- What a greeting becomes by one more response. Silence outweighs a refusal. -/
def Greeting.add (g : Greeting) (r : Request) : Response → Greeting
  | .silence => .silence
  | .refused => if isOptional r ∨ g = .silence then g else .refused
  | _ => g

/-- Sends the commands that open a connection. -/
def greet (s : Server) (trusted : Bool) (g : Greeting) : List Request → Server × Bool × Greeting
  | [] => (s, trusted, g)
  | r :: rest =>
    let (s, response) := s.receive trusted r
    let trusted := trusted || (r matches .auth _ && response = .ok)
    greet s trusted (g.add r response) rest

/-- Notes the answer that a request is going to get. -/
def note (c : Client) (conn : ConnId) (reply : Reply) : Client :=
  { c with replies := Table.put c.replies conn reply }

def connect (c : Client) (conn : ConnId) : Client × Delay :=
  if !c.linked || !c.server.up then (c.note conn (.error unusable), .none)
  else
    let server := { c.server with accepted := c.server.accepted + 1 }
    let (server, trusted, greeting) :=
      greet server server.password.isNone .welcome (handshake c.url)
    let c := { c with server }
    match greeting with
    | .welcome =>
      ({ c with connections := Table.put c.connections conn trusted }.note conn (.ok 0), .none)
    | .refused => (c.note conn (.error unusable), .none)
    | .silence => (c.note conn (.error .connectTimeout), .ofMs c.connectTimeoutMs)

/-- Notes the answer that a response stands for. -/
def settle (c : Client) (conn : ConnId) : Response → Client × Delay
  | .ok => (c.note conn (.ok 0), .none)
  | .number n => (c.note conn (.ok (Keyspace.remainingMs n)), .none)
  | .noScript | .refused => (c.note conn (.error refused), .none)
  | .silence => (c.note conn (.error unanswered), .ofMs c.commandTimeoutMs)

def send (c : Client) (trusted : Bool) (r : Request) : Client × Response :=
  let (server, response) := c.server.receive trusted r
  ({ c with server }, response)

def count (c : Client) (trusted : Bool) (key : String) (limit windowMs : Nat) :
    Client × Response :=
  match c.send trusted (.evalSha key limit windowMs) with
  | (c, .noScript) =>
    match c.send trusted .scriptLoad with
    | (c, .ok) => c.send trusted (.evalSha key limit windowMs)
    | other => other
  | other => other

def start (c : Client) (conn : ConnId) : Command → Client × Delay
  | .connect => c.connect conn
  | .ping =>
    match Table.get? c.connections conn with
    | none => (c.note conn (.error refused), .none)
    | some trusted =>
      let (c, response) := c.send trusted .ping
      c.settle conn response
  | .count key limit windowMs =>
    match Table.get? c.connections conn with
    | none => (c.note conn (.error refused), .none)
    | some trusted =>
      let (c, response) := c.count trusted key limit windowMs
      c.settle conn response

def finish (c : Client) (conn : ConnId) : Client × Reply :=
  ({ c with replies := Table.without c.replies conn },
    (Table.get? c.replies conn).getD (.error refused))

def backend : Backend Client where
  start := start
  finish c _ conn _ := c.finish conn

def drop (c : Client) : Client := { c with connections := [] }

/-- A client of a server that has nothing in it. -/
def fresh (server : Server) (linked : Bool) (url : RedisUrl) (settings : RedisSettings) :
    Client where
  server
  linked
  url
  connectTimeoutMs := settings.connectTimeout * 1000
  commandTimeoutMs := settings.commandTimeout * 1000
  connections := []
  replies := []

end Client

end Turnstile.Redis
