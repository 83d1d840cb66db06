import Turnstile.Json.Value
import Turnstile.Decimal.Shortest
import Turnstile.Text.Quoted

/-!
# JSON text

The compact form: no blank space, fields in the order of the object. A string escapes quotes,
backslashes and controls and nothing else; where the reader at the other end knows ASCII alone,
every other character is escaped by its UTF-16 units.
-/

namespace Turnstile.Json

inductive Charset where
  | unicode
  | ascii
deriving DecidableEq, Repr

def fourHex (n : Nat) : List Char :=
  [Text.hexDigit (n / 4096 % 16), Text.hexDigit (n / 256 % 16),
   Text.hexDigit (n / 16 % 16), Text.hexDigit (n % 16)]

def escapeUnit (n : Nat) : List Char := '\\' :: 'u' :: fourHex n

/-- A character outside ASCII by its UTF-16 units. -/
def escapeUnits (n : Nat) : List Char :=
  if n < 0x10000 then escapeUnit n
  else escapeUnit (0xD800 + (n - 0x10000) / 1024) ++ escapeUnit (0xDC00 + (n - 0x10000) % 1024)

def stringChar (set : Charset) (c : Char) : List Char :=
  if c = '"' then ['\\', '"']
  else if c = '\\' then ['\\', '\\']
  else if c = '\x08' then ['\\', 'b']
  else if c = '\t' then ['\\', 't']
  else if c = '\n' then ['\\', 'n']
  else if c = '\x0c' then ['\\', 'f']
  else if c = '\r' then ['\\', 'r']
  else if c.toNat < 0x20 then escapeUnit c.toNat
  else if set = .ascii ∧ 0x7F ≤ c.toNat then escapeUnits c.toNat
  else [c]

def stringChars (set : Charset) (s : String) : List Char :=
  '"' :: s.toList.flatMap (stringChar set) ++ ['"']

def intChars : Int → List Char
  | .ofNat n => Nat.toDigits 10 n
  | .negSucc n => '-' :: Nat.toDigits 10 (n + 1)

mutual

def chars (set : Charset) : Json → List Char
  | .null => ['n', 'u', 'l', 'l']
  | .bool true => ['t', 'r', 'u', 'e']
  | .bool false => ['f', 'a', 'l', 's', 'e']
  | .int n => intChars n
  | .real x => x.text
  | .str s => stringChars set s
  | .arr items => '[' :: itemChars set items ++ [']']
  | .obj fields => '\x7b' :: fieldChars set fields ++ ['\x7d']

/-- The items of an array, with commas between them. -/
def itemChars (set : Charset) : List Json → List Char
  | [] => []
  | [item] => chars set item
  | item :: rest => chars set item ++ ',' :: itemChars set rest

/-- The fields of an object, with commas between them. -/
def fieldChars (set : Charset) : List (String × Json) → List Char
  | [] => []
  | [(name, value)] => stringChars set name ++ ':' :: chars set value
  | (name, value) :: rest =>
    stringChars set name ++ ':' :: chars set value ++ ',' :: fieldChars set rest

end

def text (value : Json) : String := String.ofList (chars .unicode value)

def asciiText (value : Json) : String := String.ofList (chars .ascii value)

end Turnstile.Json
