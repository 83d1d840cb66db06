import Turnstile.Http.Request
import Turnstile.Key
import Turnstile.Text.Blank

/-!
# Who is calling

A request is charged to its authenticated caller, or else to an address. Where proxies are believed
the address is the first that is not blank of the header `x-real-ip`, the entries of the header
`x-forwarded-for` and the peer; where they are not, it is the peer's. A request without any address
is charged to one that all such requests share.
-/

namespace Turnstile

def commaPieces : List Char → List (List Char)
  | [] => [[]]
  | c :: rest =>
    if c = ',' then [] :: commaPieces rest
    else
      match commaPieces rest with
      | [] => [[c]]
      | piece :: more => (c :: piece) :: more

namespace Request

/-- The name under which requests without an address are charged. -/
def unknownAddress : String := "unknown"

/-- The address that a proxy says the request comes from. -/
def forwardedAddress? (r : Request) : Option String :=
  match (r.readableHeader? "x-real-ip").filter fun v => !Text.isBlankText v with
  | some value => some value
  | none =>
    match r.readableHeader? "x-forwarded-for" with
    | some value =>
      ((commaPieces value.toList).find? fun piece => !piece.all Text.isBlank).map String.ofList
    | none => none

/-- The address that the request is charged to. -/
def chargedAddress (r : Request) (trustProxyHeaders : Bool) : String :=
  let forwarded := if trustProxyHeaders then r.forwardedAddress? else none
  match forwarded with
  | some address => Text.trim address
  | none =>
    match r.peer with
    | some address => Text.trim address.text
    | none => unknownAddress

/-- The identity that the request is charged to. -/
def identity (r : Request) (trustProxyHeaders : Bool) : String :=
  match r.caller with
  | some caller => caller
  | none => addressIdentity (r.chargedAddress trustProxyHeaders)

/-! ## Laws -/

theorem identity_of_caller {r : Request} {caller : String} (h : r.caller = some caller)
    (trust : Bool) : r.identity trust = caller := by
  simp [identity, h]

/-- Headers count only where proxies are believed. -/
theorem identity_direct (r : Request) (headers : List (String × String)) :
    Request.identity { r with headers := headers } false = r.identity false := rfl

end Request

end Turnstile
