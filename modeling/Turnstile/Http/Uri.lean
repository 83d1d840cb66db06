/-!
# Request targets

The target of a request is a path with an optional query, an absolute URI, or an authority alone.
`pathOf?` gives the path of a target that is well formed: up to the query or the fragment, with
nothing decoded. An authority alone has an empty path.
-/

namespace Turnstile.Uri

/-- The characters that a path may hold as they are. -/
def isPathChar (c : Char) : Bool :=
  let n := c.toNat
  n == 0x21 || n == 0x22 || (0x24 ≤ n && n ≤ 0x3B) || n == 0x3D || (0x40 ≤ n && n ≤ 0x5F)
    || (0x61 ≤ n && n ≤ 0x7E) || 0x7F ≤ n

/-- The characters that a query may hold as they are. -/
def isQueryChar (c : Char) : Bool :=
  let n := c.toNat
  n == 0x21 || (0x24 ≤ n && n ≤ 0x3B) || n == 0x3D || 0x3F ≤ n

/-- The characters of the name of a scheme. -/
def isSchemeChar (c : Char) : Bool := c.isAlphanum || c = '+' || c = '-' || c = '.'

def isAuthorityChar (c : Char) : Bool :=
  c.isAlphanum || "-._~%!$&'()*+,;=:@[]".toList.contains c

def beforeFragment (s : List Char) : List Char := s.takeWhile (· ≠ '#')

/-- The path at the front of a path with an optional query. -/
def path? (s : List Char) : Option (List Char) :=
  let s := beforeFragment s
  let path := s.takeWhile (· ≠ '?')
  let query := (s.dropWhile (· ≠ '?')).drop 1
  if path.all isPathChar && query.all isQueryChar then some path else none

/-- What follows `://` after the name of a scheme. -/
def afterScheme? (s : List Char) : Option (List Char) :=
  let scheme := s.takeWhile isSchemeChar
  match scheme, s.dropWhile isSchemeChar with
  | [], _ => none
  | _, ':' :: '/' :: '/' :: rest => some rest
  | _, _ => none

/-- A character at which an authority ends. -/
def endsAuthority (c : Char) : Bool := c = '/' || c = '?' || c = '#'

/-- The path of an absolute URI after its scheme; a missing one is the root. -/
def absolutePath? (s : List Char) : Option (List Char) :=
  let authority := s.takeWhile fun c => !endsAuthority c
  if authority.isEmpty || !authority.all isAuthorityChar then none
  else
    match s.dropWhile fun c => !endsAuthority c with
    | '/' :: rest => path? ('/' :: rest)
    | rest => (path? rest).map fun _ => ['/']

def maxLength : Nat := 65534

/-- The path of a target, if the target is well formed. -/
def pathOf? (target : String) : Option String :=
  let s := target.toList
  if maxLength < target.utf8ByteSize then none
  else
    match s with
    | [] => none
    | ['*'] => some "*"
    | '/' :: _ => (path? s).map String.ofList
    | _ =>
      match afterScheme? s with
      | some rest => (absolutePath? rest).map String.ofList
      | none => if s.all isAuthorityChar then some "" else none

end Turnstile.Uri
