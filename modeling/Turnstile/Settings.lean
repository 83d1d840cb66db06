import Turnstile.Text.Blank
import Turnstile.Text.Numeral
import Turnstile.Text.Quoted

/-!
# Settings

The settings of the service come from named texts, each of which may be missing and then has a
default. Numbers and switches may have blank space around them. `Settings.ofLookup` reads the typed
ones in a fixed order and stops at the first that cannot be read.
-/

namespace Turnstile

inductive StoreKind where
  | redis
  | memory
deriving DecidableEq, Repr

def StoreKind.name : StoreKind → String
  | .redis => "redis"
  | .memory => "memory"

/-- How to reach the Redis server and how to share connections to it. Times are in seconds. -/
structure RedisSettings where
  host : String
  port : Nat
  db : Int
  password : Option String
  maxConnections : Nat
  connectTimeout : Nat
  commandTimeout : Nat
  keepalive : Bool
  retryOnTimeout : Bool
  healthCheckInterval : Nat
deriving DecidableEq, Repr

/-- The URL of the server, with the password and the number of the database in it. -/
def RedisSettings.url (r : RedisSettings) : String :=
  let place := r.host ++ ":" ++ toString r.port ++ "/" ++ toString r.db
  match r.password with
  | some password => "redis://:" ++ password ++ "@" ++ place
  | none => "redis://" ++ place

/-- How often a caller may read and write in a minute, and whether proxies are believed. -/
structure LimitSettings where
  readPerMin : Int
  writePerMin : Int
  trustProxyHeaders : Bool
deriving DecidableEq, Repr

structure Settings where
  serverHost : String
  serverPort : Nat
  basePath : String
  store : StoreKind
  redis : RedisSettings
  limits : LimitSettings
deriving DecidableEq, Repr

/-- A setting that could not be read: its name and its text as it was given. -/
structure InvalidSetting where
  key : String
  value : String
deriving DecidableEq, Repr

def InvalidSetting.message (e : InvalidSetting) : String :=
  "invalid value " ++ Text.quoted e.value ++ " for " ++ e.key

namespace Settings

/-! ## The forms of a setting -/

/-- A text without blank space around it and with ASCII letters in lower case. -/
def normalized (s : String) : List Char := (Text.trimChars s.toList).map Char.toLower

def switch? (s : String) : Option Bool :=
  let word := normalized s
  if word ∈ ["1".toList, "true".toList, "yes".toList, "on".toList] then some true
  else if word ∈ ["0".toList, "false".toList, "no".toList, "off".toList] then some false
  else none

def store? (s : String) : Option StoreKind :=
  let word := normalized s
  if word = "redis".toList then some .redis
  else if word = "memory".toList then some .memory
  else none

def port? (s : String) : Option Nat := Text.natural? Text.maxU16 (Text.trimChars s.toList)

def count? (s : String) : Option Nat := Text.natural? Text.maxU64 (Text.trimChars s.toList)

def signed? (s : String) : Option Int :=
  Text.integer? Text.minI64 Text.maxI64 (Text.trimChars s.toList)

/-! ## Reading -/

abbrev Lookup := String → Option String

/-- The setting of that name read in that form; the default if it is not set. -/
def read {α : Type} (lookup : Lookup) (key : String) (form : String → Option α) (default : α) :
    Except InvalidSetting α :=
  match lookup key with
  | none => .ok default
  | some raw =>
    match form raw with
    | some value => .ok value
    | none => .error ⟨key, raw⟩

/-- The settings that a source of texts describes. -/
def ofLookup (lookup : Lookup) : Except InvalidSetting Settings := do
  let serverPort ← read lookup "SERVER_PORT" port? 3000
  let store ← read lookup "CACHE_BACKEND" store? .redis
  let port ← read lookup "REDIS_PORT" port? 6379
  let db ← read lookup "REDIS_DB" signed? 0
  let maxConnections ← read lookup "REDIS_MAX_CONNECTIONS" count? 10
  let connectTimeout ← read lookup "REDIS_CONNECTION_TIMEOUT" count? 5
  let commandTimeout ← read lookup "REDIS_COMMAND_TIMEOUT" count? 5
  let keepalive ← read lookup "REDIS_KEEPALIVE" switch? true
  let retryOnTimeout ← read lookup "REDIS_RETRY_ON_TIMEOUT" switch? true
  let healthCheckInterval ← read lookup "REDIS_HEALTH_CHECK_INTERVAL" count? 30
  let readPerMin ← read lookup "READ_RATE_LIMITING_PER_MIN" signed? 60
  let writePerMin ← read lookup "WRITE_RATE_LIMITING_PER_MIN" signed? 10
  let trustProxyHeaders ← read lookup "TRUST_PROXY_HEADERS" switch? false
  return {
    serverHost := (lookup "SERVER_HOST").getD "0.0.0.0"
    serverPort
    basePath := (lookup "API_BASE_URI").getD "/api"
    store
    redis := {
      host := (lookup "REDIS_HOST").getD "localhost"
      port, db
      password := (lookup "REDIS_PASSWORD").filter fun p => p ≠ ""
      maxConnections, connectTimeout, commandTimeout, keepalive, retryOnTimeout
      healthCheckInterval }
    limits := { readPerMin, writePerMin, trustProxyHeaders } }

end Settings

end Turnstile
