import Turnstile.Json.Numeral

/-!
# Reading JSON text

A reader takes the text as a list of characters and gives the value at its front with the rest.
Nesting is limited by the first argument of `value?`, which is also what the recursion counts down.

A value that nobody wants is read with `Care.shape`: its grammar is checked, but escapes may name
half of a surrogate pair and numbers may be of any size.
-/

namespace Turnstile.Json

inductive Care where
  | meaning
  | shape
deriving DecidableEq, Repr

/-- Blank space between the parts of a JSON text. -/
def isSpace (c : Char) : Bool := c = ' ' || c = '\n' || c = '\t' || c = '\r'

/-- The text after the blank space at its front. -/
def skipSpace (s : List Char) : List Char := s.dropWhile isSpace

/-! ## Strings -/

def hexValue? (c : Char) : Option Nat :=
  if '0' ≤ c ∧ c ≤ '9' then some (c.toNat - '0'.toNat)
  else if 'a' ≤ c ∧ c ≤ 'f' then some (c.toNat - 'a'.toNat + 10)
  else if 'A' ≤ c ∧ c ≤ 'F' then some (c.toNat - 'A'.toNat + 10)
  else none

/-- The number that four digits of base sixteen stand for. -/
def unit? (a b c d : Char) : Option Nat := do
  return (← hexValue? a) * 4096 + (← hexValue? b) * 256 + (← hexValue? c) * 16 + (← hexValue? d)

def isHighSurrogate (n : Nat) : Bool := 0xD800 ≤ n && n ≤ 0xDBFF

def isLowSurrogate (n : Nat) : Bool := 0xDC00 ≤ n && n ≤ 0xDFFF

def pairChar (high low : Nat) : Char :=
  Char.ofNat (0x10000 + (high - 0xD800) * 1024 + (low - 0xDC00))

/-- The character after a backslash, other than `u`. -/
def escape? (c : Char) : Option Char :=
  if c = '"' then some '"'
  else if c = '\\' then some '\\'
  else if c = '/' then some '/'
  else if c = 'b' then some '\x08'
  else if c = 'f' then some '\x0c'
  else if c = 'n' then some '\n'
  else if c = 'r' then some '\r'
  else if c = 't' then some '\t'
  else none

/-- A character in front of a string that was read. -/
def push (c : Char) (found : List Char × List Char) : List Char × List Char :=
  (c :: found.1, found.2)

/-- The characters up to the closing quote, and the text after it. -/
def stringBody? (care : Care) : List Char → Option (List Char × List Char)
  | '"' :: rest => some ([], rest)
  | '\\' :: 'u' :: a :: b :: c :: d :: '\\' :: 'u' :: e :: f :: g :: h :: rest =>
    match unit? a b c d with
    | none => none
    | some x =>
      if care = .shape then
        (stringBody? care ('\\' :: 'u' :: e :: f :: g :: h :: rest)).map (push '?')
      else if isHighSurrogate x then
        match unit? e f g h with
        | some y =>
          if isLowSurrogate y then (stringBody? care rest).map (push (pairChar x y)) else none
        | none => none
      else if isLowSurrogate x then none
      else (stringBody? care ('\\' :: 'u' :: e :: f :: g :: h :: rest)).map (push (Char.ofNat x))
  | '\\' :: 'u' :: a :: b :: c :: d :: rest =>
    match unit? a b c d with
    | none => none
    | some x =>
      if care = .shape then (stringBody? care rest).map (push '?')
      else if isHighSurrogate x || isLowSurrogate x then none
      else (stringBody? care rest).map (push (Char.ofNat x))
  | '\\' :: c :: rest =>
    match escape? c with
    | some x => (stringBody? care rest).map (push x)
    | none => none
  | c :: rest => if c.toNat < 0x20 then none else (stringBody? care rest).map (push c)
  | [] => none

def string? (care : Care) : List Char → Option (String × List Char)
  | '"' :: rest => (stringBody? care rest).map fun (cs, rest) => (String.ofList cs, rest)
  | _ => none

/-! ## Values -/

abbrev Reader := List Char → Option (Json × List Char)

/-- The items of an array after the first bracket or comma; the first argument bounds their
number. -/
def itemList? (item : Reader) : Nat → List Char → Option (List Json × List Char)
  | 0, _ => none
  | bound + 1, s => do
    let (value, s) ← item s
    match skipSpace s with
    | ',' :: s => (itemList? item bound s).map fun (more, rest) => (value :: more, rest)
    | ']' :: rest => some ([value], rest)
    | _ => none

/-- A field's name with the colon after it. -/
def name? (care : Care) (s : List Char) : Option (String × List Char) := do
  let (name, s) ← string? care (skipSpace s)
  match skipSpace s with
  | ':' :: rest => some (name, rest)
  | _ => none

/-- The fields of an object after the first brace or comma. -/
def fieldList? (care : Care) (item : Reader) :
    Nat → List Char → Option (List (String × Json) × List Char)
  | 0, _ => none
  | bound + 1, s => do
    let (name, s) ← name? care s
    let (value, s) ← item s
    match skipSpace s with
    | ',' :: s =>
      (fieldList? care item bound s).map fun (more, rest) => ((name, value) :: more, rest)
    | '\x7d' :: rest => some ([(name, value)], rest)
    | _ => none

def array? (item : Reader) (s : List Char) : Option (Json × List Char) :=
  match skipSpace s with
  | ']' :: rest => some (.arr [], rest)
  | _ => (itemList? item s.length s).map fun (items, rest) => (.arr items, rest)

def object? (care : Care) (item : Reader) (s : List Char) : Option (Json × List Char) :=
  match skipSpace s with
  | '\x7d' :: rest => some (.obj [], rest)
  | _ => (fieldList? care item s.length s).map fun (fields, rest) => (ofFields fields, rest)

def number? (care : Care) (s : List Char) : Option (Json × List Char) := do
  let (numeral, rest) ← Numeral.scan? s
  match care with
  | .meaning => return (← numeral.value?, rest)
  | .shape => return (.null, rest)

/-- The value at the front of the text, nested at most `depth` deep. -/
def value? (care : Care) : Nat → List Char → Option (Json × List Char)
  | depth, s =>
    match skipSpace s with
    | 'n' :: 'u' :: 'l' :: 'l' :: rest => some (.null, rest)
    | 't' :: 'r' :: 'u' :: 'e' :: rest => some (.bool true, rest)
    | 'f' :: 'a' :: 'l' :: 's' :: 'e' :: rest => some (.bool false, rest)
    | '"' :: rest => (string? care ('"' :: rest)).map fun (s, rest) => (.str s, rest)
    | '[' :: rest =>
      match depth with
      | 0 => none
      | depth + 1 => array? (value? care depth) rest
    | '\x7b' :: rest =>
      match depth with
      | 0 => none
      | depth + 1 => object? care (value? care depth) rest
    | s => number? care s

def maxDepth : Nat := 127

def ofText? (s : String) : Option Json := do
  let (value, rest) ← value? .meaning maxDepth s.toList
  if (skipSpace rest).isEmpty then some value else none

end Turnstile.Json
