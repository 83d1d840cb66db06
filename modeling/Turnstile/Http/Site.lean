import Turnstile.Http.Identity
import Turnstile.Http.Policy
import Turnstile.Http.Response
import Turnstile.Http.Route

/-!
# The site

The one route of the service: the limiter's status, under the base path that is set. Every request
whose path is the route's is limited, whatever its method; no other request is.
-/

namespace Turnstile

structure Site where
  route : Route
  policy : Policy
deriving DecidableEq, Repr

inductive SiteFault where
  | limit (e : InvalidLimit)
  | base
deriving DecidableEq, Repr

namespace Site

def statusPath : String := "/rate-limit/status"

/-- The name under which the status route is counted. -/
def statusName : String := "status"

def ofSettings (s : Settings) : Except SiteFault Site :=
  match Policy.perMinute statusName s.limits with
  | .error e => .error (.limit e)
  | .ok policy =>
    match Route.mount? s.basePath statusPath with
    | some route => .ok ⟨route, policy⟩
    | none => .error .base

def routes (site : Site) (r : Request) : Bool := site.route.accepts r.path.toList

/-- The response to a request that was decided on. -/
def respond (r : Request) (status : Status) : Decision → Response
  | .rejected seconds => (Response.tooManyRequests seconds).sent r.method
  | _ => (Response.ofStatus r.method status).sent r.method

end Site

end Turnstile
