import Turnstile.Settings
import Turnstile.Text.Percent

/-!
# Redis URLs

The URL of a Redis server is `redis://`, then a user and a password before an `@`, both optional,
then a host and an optional port, then a slash and the number of a database. The part with host and
password ends at the first slash, question mark or number sign, and the last `@` before that is the
one that counts. The password is written with percent escapes.
-/

namespace Turnstile

structure RedisUrl where
  host : String
  port : Nat
  db : Int
  user : String
  password : Option String
deriving DecidableEq, Repr

namespace RedisUrl

/-- A character at which host and password end. -/
def endsAuthority (c : Char) : Bool := c = '/' || c = '?' || c = '#'

/-- A character that is dropped wherever it stands. -/
def isDropped (c : Char) : Bool := c = '\t' || c = '\n' || c = '\r'

/-- What stands before and after the last occurrence of a character. -/
def splitLast? (c : Char) : List Char → Option (List Char × List Char)
  | [] => none
  | x :: rest =>
    match splitLast? c rest with
    | some (before, after) => some (x :: before, after)
    | none => if x = c then some ([], rest) else none

def standardPort : Nat := 6379

def port? : List Char → Option Nat
  | [] | [':'] => some standardPort
  | ':' :: digits => (Text.digits? digits).filter (· ≤ Text.maxU16)
  | _ => none

def isForbidden (c : Char) : Bool :=
  c = '\x00' || " <>@[\\]^|".toList.contains c

def isAddressChar (c : Char) : Bool :=
  c.isDigit || c = ':' || c = '.' || "abcdefABCDEF".toList.contains c

def hostPort? (s : List Char) : Option (String × Nat) :=
  match s with
  | '[' :: rest =>
    let address := rest.takeWhile (· ≠ ']')
    if address.isEmpty || !address.all isAddressChar then none
    else
      match rest.dropWhile (· ≠ ']') with
      | ']' :: tail => (port? tail).map fun p => (String.ofList address, p)
      | _ => none
  | _ =>
    let host := s.takeWhile (· ≠ ':')
    if host.isEmpty || host.any isForbidden then none
    else (port? (s.dropWhile (· ≠ ':'))).map fun p => (String.ofList host, p)

def credentials? (s : List Char) : Option (String × Option String) := do
  let user ← Text.Percent.decodeText? (String.ofList (s.takeWhile (· ≠ ':')))
  let password := (s.dropWhile (· ≠ ':')).drop 1
  if password.isEmpty then return (user, none)
  return (user, some (← Text.Percent.decodeText? (String.ofList password)))

def trimSlashes (s : List Char) : List Char :=
  ((s.dropWhile (· = '/')).reverse.dropWhile (· = '/')).reverse

/-- The number of the database that a path names; none is the first. -/
def db? (path : List Char) : Option Int :=
  match trimSlashes path with
  | [] => some 0
  | digits => Text.integer? Text.minI64 Text.maxI64 digits

def parameters : List Char → List (List Char)
  | [] => [[]]
  | c :: rest =>
    if c = '&' then [] :: parameters rest
    else
      match parameters rest with
      | [] => [[c]]
      | piece :: more => (c :: piece) :: more

/-- The versions of the protocol that may be asked for. -/
def protocols : List String := ["2", "3", "resp2", "resp3"]

/-- Whether a query asks for no version of the protocol that does not exist. -/
def isQuery (query : List Char) : Bool :=
  let asked := (parameters query).filter fun p => p.takeWhile (· ≠ '=') = "protocol".toList
  match asked.getLast? with
  | some p => protocols.contains (String.ofList ((p.dropWhile (· ≠ '=')).drop 1))
  | none => true

/-- What stands in front of every Redis URL. -/
def scheme : List Char := "redis://".toList

def ofText? (text : String) : Option RedisUrl := do
  let s := text.toList.filter fun c => !isDropped c
  if s.take scheme.length ≠ scheme then none
  let s := s.drop scheme.length
  let authority := s.takeWhile fun c => !endsAuthority c
  let target := (s.dropWhile fun c => !endsAuthority c).takeWhile (· ≠ '#')
  let query := (target.dropWhile (· ≠ '?')).drop 1
  if !isQuery query then none
  let (user, password) ← match splitLast? '@' authority with
    | some (before, _) => credentials? before
    | none => some ("", none)
  let (host, port) ← match splitLast? '@' authority with
    | some (_, after) => hostPort? after
    | none => hostPort? authority
  let db ← db? (target.takeWhile (· ≠ '?'))
  return ⟨host, port, db, user, password⟩

end RedisUrl

/-- The server that the settings describe, if their URL can be read. -/
def RedisSettings.server? (r : RedisSettings) : Option RedisUrl := RedisUrl.ofText? r.url

end Turnstile
