import Turnstile.Event
import Turnstile.Http.Envelope

/-!
# Responses

What a client gets back: the answer of the status route, the refusal of a call that is over its
limit, the refusal of a method that the route does not have, or nothing at all for an unknown path.
A response to `HEAD` has the headers of the one to `GET` and no body.
-/

namespace Turnstile

/-- A response; its headers are in the order of their names. -/
structure Response where
  status : Nat
  headers : List (String × String)
  body : String
deriving DecidableEq, Repr, Inhabited

structure Status where
  allowed : Nat
  rejected : Nat
  degraded : Nat
  outage : Bool
  outageSince : Option Time
  maxConnections : Nat
  idleConnections : Nat
deriving DecidableEq, Repr

namespace Status

/-- The mark that stands for the date of an outage, which a calendar outside the library gives. -/
def dateMark : String := "TIME"

def json (s : Status) : Json :=
  .obj [("allowed_total", .nat s.allowed), ("rejected_total", .nat s.rejected),
    ("degraded_total", .nat s.degraded), ("degraded", .bool s.outage),
    ("degraded_since", if s.outageSince.isSome then .str dateMark else .null),
    ("max_connections", .nat s.maxConnections), ("idle_connections", .nat s.idleConnections)]

end Status

namespace Response

/-- The header of every answer with an envelope in it. -/
def jsonType : String × String := ("content-type", "application/json")

/-- The header that lists the methods of the status route. -/
def allowedMethods : String × String := ("allow", "GET,HEAD")

/-- Whether the status route has the method. -/
def isServed (method : String) : Bool := method ∈ ["GET", "HEAD"]

/-- The answer for a path that no route has. -/
def notFound : Response := ⟨404, [], ""⟩

/-- The answer to a call that is over its limit. -/
def tooManyRequests (retryAfterSeconds : Nat) : Response :=
  let seconds := toString retryAfterSeconds
  let message := "Rate limit exceeded. Try again in " ++ seconds ++ " seconds."
  ⟨429, [jsonType, ("retry-after", seconds)], (Envelope.failure 429 message).text⟩

/-- The answer of the status route itself, whatever the method. -/
def ofStatus (method : String) (status : Status) : Response :=
  if isServed method then ⟨200, [jsonType], (Envelope.success status.json).text⟩ else ⟨405, [], ""⟩

/-- The response as the route sends it: the methods it has for one that it has not, no body for
`HEAD`. -/
def sent (method : String) (r : Response) : Response :=
  { r with
    headers := if isServed method then r.headers else allowedMethods :: r.headers
    body := if method = "HEAD" then "" else r.body }

end Response

end Turnstile
