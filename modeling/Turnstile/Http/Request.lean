import Turnstile.Address
import Turnstile.Http.Uri

/-!
# Requests

A request as far as the limiter looks at it: its method and target, its headers in the order in
which they came, the address of the peer if that is known, and the caller if one was authenticated.
-/

namespace Turnstile

structure Request where
  method : String
  target : String
  headers : List (String × String)
  peer : Option Address
  caller : Option String
deriving DecidableEq, Repr

namespace Request

/-- The characters of a method and of the name of a header. -/
def isTokenChar (c : Char) : Bool :=
  c.isAlphanum || "!#$%&'*+-.^_\x60|~".toList.contains c

def isToken (s : String) : Bool := !s.isEmpty && s.toList.all isTokenChar

/-- A character that a header may carry: no control but the tab. -/
def isHeaderChar (c : Char) : Bool := c = '\t' || (0x20 ≤ c.toNat && c.toNat ≠ 0x7F)

inductive Part where
  | method
  | target
  | headers
deriving DecidableEq, Repr

/-- The first part of the request that no client can send. -/
def malformed? (r : Request) : Option Part :=
  if !isToken r.method then some .method
  else if (Uri.pathOf? r.target).isNone then some .target
  else if r.headers.any fun h => !isToken h.1 || !h.2.toList.all isHeaderChar then some .headers
  else none

def path (r : Request) : String := (Uri.pathOf? r.target).getD ""

/-- The first header of that name, whatever the case of its letters. -/
def header? (r : Request) (name : String) : Option String :=
  (r.headers.find? fun h => h.1.toLower = name).map (·.2)

/-- A value of visible ASCII characters, spaces and tabs. -/
def isReadable (value : String) : Bool :=
  value.toList.all fun c => c = '\t' || (0x20 ≤ c.toNat && c.toNat ≤ 0x7E)

/-- The first header of that name, if it can be read as text. -/
def readableHeader? (r : Request) (name : String) : Option String :=
  (r.header? name).filter isReadable

end Request

end Turnstile
