import Turnstile.Json.Printer
import Turnstile.Json.Reader

/-!
# The answer envelope

Every answer of the service is an object of up to three fields in this order: a code, a message
and a content. A field that is absent is left out.

`Envelope.ofText?` reads one back. Fields that it does not know are skipped, a known field may come
only once, and a content of null counts as absent. An array of the three fields is read too.
-/

namespace Turnstile

/-- A code with an optional message and an optional content. -/
structure Envelope where
  code : Int
  message : Option String
  content : Option Json
deriving Inhabited, Repr

namespace Envelope

def success (content : Json) : Envelope := ⟨0, none, some content⟩

def failure (code : Int) (message : String) : Envelope := ⟨code, some message, none⟩

/-! ## Writing -/

def fields (e : Envelope) : List (String × Json) :=
  [("code", .int e.code)]
    ++ (e.message.map fun m => ("error_message", Json.str m)).toList
    ++ (e.content.map fun c => ("content", c)).toList

def text (e : Envelope) : String := (Json.obj e.fields).text

/-! ## Reading -/

structure Draft where
  code : Option Int
  message : Option (Option String)
  content : Option (Option Json)

def Draft.empty : Draft := ⟨none, none, none⟩

/-- The envelope of the fields, if none is missing that has to be there. -/
def Draft.finish? (d : Draft) : Option Envelope :=
  d.code.map fun code => ⟨code, d.message.getD none, d.content.getD none⟩

/-- A code: a whole number of thirty-two bits. -/
def code? (s : List Char) : Option (Int × List Char) :=
  match Json.number? .meaning (Json.skipSpace s) with
  | some (.int n, rest) => if -2147483648 ≤ n ∧ n ≤ 2147483647 then some (n, rest) else none
  | _ => none

def message? (s : List Char) : Option (Option String × List Char) :=
  match Json.skipSpace s with
  | 'n' :: 'u' :: 'l' :: 'l' :: rest => some (none, rest)
  | s => (Json.string? .meaning s).map fun (m, rest) => (some m, rest)

/-- How deep a content may nest inside the envelope. -/
def contentDepth : Nat := Json.maxDepth - 1

def content? (s : List Char) : Option (Option Json × List Char) :=
  match Json.value? .meaning contentDepth s with
  | some (.null, rest) => some (none, rest)
  | some (value, rest) => some (some value, rest)
  | none => none

/-- Reads the value of a field into a draft that does not have it yet. -/
def field? (name : String) (d : Draft) (s : List Char) : Option (Draft × List Char) :=
  if name = "code" then
    match d.code with
    | some _ => none
    | none => (code? s).map fun (c, rest) => ({ d with code := some c }, rest)
  else if name = "error_message" then
    match d.message with
    | some _ => none
    | none => (message? s).map fun (m, rest) => ({ d with message := some m }, rest)
  else if name = "content" then
    match d.content with
    | some _ => none
    | none => (content? s).map fun (c, rest) => ({ d with content := some c }, rest)
  else (Json.value? .shape s.length s).map fun (_, rest) => (d, rest)

/-- Reads the fields after a brace or a comma; the first argument bounds their number. -/
def fieldList? : Nat → Draft → List Char → Option (Draft × List Char)
  | 0, _, _ => none
  | bound + 1, d, s => do
    let (name, s) ← Json.name? .meaning s
    let (d, s) ← field? name d s
    match Json.skipSpace s with
    | ',' :: s => fieldList? bound d s
    | '\x7d' :: rest => some (d, rest)
    | _ => none

def comma? (s : List Char) : Option (List Char) :=
  match Json.skipSpace s with
  | ',' :: rest => some rest
  | _ => none

/-- Reads the three fields of an array after its bracket. -/
def triple? (s : List Char) : Option (Envelope × List Char) := do
  let (code, s) ← code? s
  let s ← comma? s
  let (message, s) ← message? s
  let s ← comma? s
  let (content, s) ← content? s
  match Json.skipSpace s with
  | ']' :: rest => some (⟨code, message, content⟩, rest)
  | _ => none

def scan? (s : List Char) : Option (Envelope × List Char) :=
  match Json.skipSpace s with
  | '\x7b' :: s =>
    match Json.skipSpace s with
    | '\x7d' :: _ => none
    | _ => do
      let (d, rest) ← fieldList? s.length .empty s
      return (← d.finish?, rest)
  | '[' :: s => triple? s
  | _ => none

def ofText? (s : String) : Option Envelope := do
  let (e, rest) ← scan? s.toList
  if (Json.skipSpace rest).isEmpty then some e else none

end Envelope

end Turnstile
