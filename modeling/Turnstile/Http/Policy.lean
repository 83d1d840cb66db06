import Turnstile.Limit
import Turnstile.Settings

/-!
# Policies

A route counts reading and writing apart: two services, each with its own limit for a minute.
-/

namespace Turnstile

structure Policy where
  readService : String
  writeService : String
  read : Limit
  write : Limit
  trustProxyHeaders : Bool
deriving DecidableEq, Repr

namespace Policy

/-- The policy of a route under the limits that are set. -/
def perMinute (route : String) (limits : LimitSettings) : Except InvalidLimit Policy := do
  let read ← Limit.perMinute limits.readPerMin
  let write ← Limit.perMinute limits.writePerMin
  return {
    readService := route ++ "_read"
    writeService := route ++ "_write"
    read, write
    trustProxyHeaders := limits.trustProxyHeaders }

def isReading (method : String) : Bool := method ∈ ["GET", "HEAD", "OPTIONS"]

/-- The service and the limit for a method. -/
def forMethod (p : Policy) (method : String) : String × Limit :=
  if isReading method then (p.readService, p.read) else (p.writeService, p.write)

end Policy

end Turnstile
