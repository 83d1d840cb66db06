import Turnstile.Decimal.Binary64

/-!
# JSON values

Whole numbers are kept exactly, other numbers as binary fractions. The fields of an object are a
list; an object that was read has them in the order of their names, each name once.
-/

namespace Turnstile

inductive Json where
  | null
  | bool (value : Bool)
  | int (value : Int)
  | real (value : Binary64)
  | str (value : String)
  | arr (items : List Json)
  | obj (fields : List (String × Json))
deriving Inhabited, Repr

namespace Json

def nat (n : Nat) : Json := .int n

/-- Replaces the field of that name, or puts it where the order of names wants it. -/
def insertField (name : String) (value : Json) : List (String × Json) → List (String × Json)
  | [] => [(name, value)]
  | (n, v) :: rest =>
    if name = n then (name, value) :: rest
    else if name < n then (name, value) :: (n, v) :: rest
    else (n, v) :: insertField name value rest

/-- The object with these fields; of two with one name the later counts. -/
def ofFields (fields : List (String × Json)) : Json :=
  .obj (fields.foldl (fun sorted field => insertField field.1 field.2 sorted) [])

/-- The field of that name, if the value is an object and has one. -/
def field? (name : String) : Json → Option Json
  | .obj fields => (fields.find? fun field => field.1 = name).map (·.2)
  | _ => none

def str? : Json → Option String
  | .str s => some s
  | _ => none

def bool? : Json → Option Bool
  | .bool b => some b
  | _ => none

def int? : Json → Option Int
  | .int n => some n
  | _ => none

def items? : Json → Option (List Json)
  | .arr items => some items
  | _ => none

def fields? : Json → Option (List (String × Json))
  | .obj fields => some fields
  | _ => none

end Json

end Turnstile
