import Turnstile.Settings

/-!
# How a pool is run

The settings of a pool of connections, with all times in milliseconds. They follow from the settings
of the server; a pool that is told nothing else has `PoolSettings.standard`.
-/

namespace Turnstile

/-- How many connections there may be, and how long to wait for what. -/
structure PoolSettings where
  maxConnections : Nat
  connectTimeout : Nat
  commandTimeout : Nat
  keepalive : Bool
  retryOnTimeout : Bool
  healthCheckInterval : Nat
deriving DecidableEq, Repr

namespace PoolSettings

/-- Ten connections, five seconds of patience and half a minute between health checks. -/
def standard : PoolSettings := ⟨10, 5000, 5000, true, true, 30000⟩

/-- The settings of a pool for a server; there is always room for one connection. -/
def ofRedis (r : RedisSettings) : PoolSettings where
  maxConnections := max 1 r.maxConnections
  connectTimeout := r.connectTimeout * 1000
  commandTimeout := r.commandTimeout * 1000
  keepalive := r.keepalive
  retryOnTimeout := r.retryOnTimeout
  healthCheckInterval := r.healthCheckInterval * 1000

/-- How many connections may be out or under way at once. -/
def capacity (p : PoolSettings) : Nat := max 1 p.maxConnections

/-- How often a command is tried. -/
def attempts (p : PoolSettings) : Nat := if p.retryOnTimeout then 2 else 1

/-- The time from one health check to the next. -/
def checkPeriod (p : PoolSettings) : Nat := max 1 p.healthCheckInterval

/-- The largest capacity that a pool can have. -/
def maxCapacity : Nat := 2305843009213693951

theorem capacity_pos (p : PoolSettings) : 0 < p.capacity :=
  Nat.lt_of_lt_of_le Nat.one_pos (Nat.le_max_left ..)

theorem checkPeriod_pos (p : PoolSettings) : 0 < p.checkPeriod :=
  Nat.lt_of_lt_of_le Nat.one_pos (Nat.le_max_left ..)

end PoolSettings

end Turnstile
