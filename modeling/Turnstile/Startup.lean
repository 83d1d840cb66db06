import Turnstile.Http.Site
import Turnstile.Session

/-!
# Starting the service

The service starts with a pool, a limiter on it and the status route under the base that is set. It
does not come that far with a pool that is too large, with limits that cannot be enforced or with a
base that takes no route.
-/

namespace Turnstile

/-- How far the service comes: it crashes, reports a limit that cannot be enforced, or runs. -/
inductive Launch (σ : Type) where
  | crashed
  | refused (e : InvalidLimit)
  | running (session : Session σ) (site : Site)

/-- Starts the service: a pool, a limiter on it, and the status route under the base. -/
def launch {σ : Type} (begin? : PoolSettings → Option (Session σ)) (s : Settings) : Launch σ :=
  match begin? (.ofRedis s.redis) with
  | none => .crashed
  | some session =>
    match Site.ofSettings s with
    | .error (.limit e) => .refused e
    | .error .base => .crashed
    | .ok site => .running session site

end Turnstile
