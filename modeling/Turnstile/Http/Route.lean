/-!
# Routes

A route is a pattern for paths: characters that must stand there, and captures, each of which takes
a whole rest of a segment. Braces open and close a capture and are doubled to stand for themselves.
A capture has a name and ends its segment.

`Route.mount?` puts a path under a base. It refuses the bases under which nothing can be put: the
root, one without a leading slash, and one whose captures are malformed or would take more than a
segment.
-/

namespace Turnstile

inductive Step where
  | char (c : Char)
  | capture
deriving DecidableEq, Repr

abbrev Route := List Step

namespace Route

/-! ## Matching -/

/-- Whether the path is one of the route's. -/
def accepts : Route → List Char → Bool
  | [], path => path.isEmpty
  | .char c :: steps, path =>
    match path with
    | x :: rest => x = c && accepts steps rest
    | [] => false
  | .capture :: steps, path =>
    !(path.takeWhile (· ≠ '/')).isEmpty && accepts steps (path.dropWhile (· ≠ '/'))

/-! ## Reading a pattern -/

/-- A character of a pattern, and whether it was doubled to stand for itself. -/
abbrev Mark := Char × Bool

/-- The characters of a pattern with doubled braces made one. -/
def marks : List Char → List Mark
  | '\x7b' :: '\x7b' :: rest => ('\x7b', true) :: marks rest
  | '\x7d' :: '\x7d' :: rest => ('\x7d', true) :: marks rest
  | c :: rest => (c, false) :: marks rest
  | [] => []

/-- What follows the brace that closes a capture, given what follows its name's first character. -/
def afterName? : List Mark → Option (List Mark)
  | [] => none
  | ('\x7d', false) :: rest => some rest
  | (c, _) :: rest => if c = '*' ∨ c = '/' then none else afterName? rest

theorem length_afterName? {s rest : List Mark} (h : afterName? s = some rest) :
    rest.length < s.length := by
  fun_induction afterName? s with
  | case1 => cases h
  | case2 => cases h; simp
  | case3 => cases h
  | case4 c e r _ _ ih => exact Nat.lt_succ_of_lt (ih h)

/-- Whether a capture that is followed by this ends its segment. -/
def endsSegment : List Mark → Bool
  | [] => true
  | (c, _) :: _ => c = '/'

def steps? : List Mark → Option Route
  | [] => some []
  | (c, doubled) :: rest =>
    if doubled then (steps? rest).map (.char c :: ·)
    else if c = '\x7d' then none
    else if c = '\x7b' then
      match rest with
      | [] => none
      | (first, _) :: name =>
        if first = '\x7d' ∨ first = '*' then none
        else
          match _closed : afterName? name with
          | none => none
          | some after => if endsSegment after then (steps? after).map (.capture :: ·) else none
    else (steps? rest).map (.char c :: ·)
termination_by s => s.length
decreasing_by
  · simp
  · have := length_afterName? ‹afterName? name = some after›
    simp only [List.length_cons]
    omega
  · simp

/-- How many captures a route may have at most. -/
def maxCaptures : Nat := 25

def ofPattern? (pattern : List Char) : Option Route :=
  (steps? (marks pattern)).filter fun route => route.count .capture ≤ maxCaptures

/-! ## Mounting -/

def segments : List Char → List (List Char)
  | [] => [[]]
  | c :: rest =>
    if c = '/' then [] :: segments rest
    else
      match segments rest with
      | [] => [[c]]
      | piece :: more => (c :: piece) :: more

/-- A segment that starts like a capture in older notations of patterns. -/
def isReserved (segment : List Char) : Bool :=
  segment.head? = some ':' || segment.head? = some '*'

/-- A segment that would take the whole rest of a path. -/
def takesRest (segment : List Char) : Bool :=
  ['\x7b', '*'].isPrefixOf segment && ['\x7d'].isSuffixOf segment
    && !(['\x7d', '\x7d'].isSuffixOf segment)

def isBase (base : List Char) : Bool :=
  base.head? = some '/' && base ≠ ['/']
    && (segments base).all fun s => !isReserved s && !takesRest s

/-- The pattern of a path under a base, with one slash between them. -/
def join (base path : List Char) : List Char :=
  if ['/'].isSuffixOf base then base ++ path.dropWhile (· = '/') else base ++ path

def mount? (base path : String) : Option Route :=
  if isBase base.toList then ofPattern? (join base.toList path.toList) else none

end Route

end Turnstile
