import Turnstile.Json.Value
import Turnstile.Text.Numeral

/-!
# Numbers in JSON text

`Numeral.scan?` splits off the written parts of a number, `Numeral.value?` says which number they
stand for. A number without fraction and exponent that fits sixty-four bits stays whole. Any other
is as many leading digits as fit sixty-four bits, scaled once by a power of ten.
-/

namespace Turnstile.Json

/-- The parts of a number as they are written. -/
structure Numeral where
  negative : Bool
  whole : List Char
  fraction : Option (List Char)
  exponent : Option (Bool × List Char)
deriving Repr

namespace Numeral

/-! ## Scanning -/

/-- The digits at the front and what follows them. -/
def digits (s : List Char) : List Char × List Char :=
  (s.takeWhile Char.isDigit, s.dropWhile Char.isDigit)

def digits1? (s : List Char) : Option (List Char × List Char) :=
  match digits s with
  | ([], _) => none
  | found => some found

/-- The whole part: a zero alone, or digits that do not start with one. -/
def whole? (s : List Char) : Option (List Char × List Char) :=
  match digits s with
  | ([], _) => none
  | (['0'], rest) => some (['0'], rest)
  | ('0' :: _, _) => none
  | found => some found

def fraction? : List Char → Option (Option (List Char) × List Char)
  | '.' :: s => (digits1? s).map fun (ds, rest) => (some ds, rest)
  | s => some (none, s)

/-- The exponent's sign and digits; `true` is a minus sign. -/
def signedDigits? : List Char → Option ((Bool × List Char) × List Char)
  | '+' :: s => (digits1? s).map fun (ds, rest) => ((false, ds), rest)
  | '-' :: s => (digits1? s).map fun (ds, rest) => ((true, ds), rest)
  | s => (digits1? s).map fun (ds, rest) => ((false, ds), rest)

def exponent? : List Char → Option (Option (Bool × List Char) × List Char)
  | 'e' :: s => (signedDigits? s).map fun (e, rest) => (some e, rest)
  | 'E' :: s => (signedDigits? s).map fun (e, rest) => (some e, rest)
  | s => some (none, s)

/-- The sign in front: `true` is a minus sign. -/
def sign : List Char → Bool × List Char
  | '-' :: s => (true, s)
  | s => (false, s)

def scan? (s : List Char) : Option (Numeral × List Char) := do
  let (negative, s) := sign s
  let (whole, s) ← whole? s
  let (fraction, s) ← fraction? s
  let (exponent, s) ← exponent? s
  return (⟨negative, whole, fraction, exponent⟩, s)

/-! ## Meaning -/

/-- Leading digits as one number of sixty-four bits, and how many digits did not fit. -/
def leading (start : Nat) : List Char → Nat × Nat
  | [] => (start, 0)
  | d :: ds =>
    let next := 10 * start + (d.toNat - '0'.toNat)
    if next ≤ Text.maxU64 then leading next ds else (start, (d :: ds).length)

def powerOfTen? (k : Nat) : Option Binary64 := Binary64.ofRatio? false (Nat.pow 10 k) 1

/-- The largest power of ten that is applied in one step. -/
def largestStep : Nat := 308

/-- Divides by powers of ten until the exponent is used up or nothing is left. -/
def divideDown : Nat → Binary64 → Nat → Option Binary64
  | 0, x, _ => some x
  | fuel + 1, x, k =>
    if k ≤ largestStep then do x.div? (← powerOfTen? k)
    else if x.mantissa = 0 then some x
    else do divideDown fuel (← x.div? (← powerOfTen? largestStep)) (k - largestStep)

/-- A number scaled by a power of ten; none if it is too large. -/
def scale? (significand : Nat) (exponent : Int) : Option Binary64 := do
  let x ← Binary64.ofRatio? false significand 1
  if 0 ≤ exponent then
    if exponent.toNat ≤ largestStep then x.mul? (← powerOfTen? exponent.toNat)
    else if significand = 0 then some x
    else none
  else divideDown 4 x (-exponent).toNat

/-- The largest exponent that can be written. -/
def maxExponent : Nat := 2147483647

/-- A number with a fraction, an exponent or too many digits. -/
def realValue? (n : Numeral) : Option Binary64 := do
  let (significand, skipped) := leading 0 n.whole
  let fraction := n.fraction.getD []
  let (significand, dropped) := leading significand fraction
  let base : Int := skipped - ((fraction.length - dropped : Nat) : Int)
  let size ← match n.exponent with
    | none => scale? significand base
    | some (down, ds) =>
      let e := Text.digitsValue ds
      if maxExponent < e then
        if significand ≠ 0 ∧ down = false then none else some (Binary64.zero false)
      else scale? significand (if down then base - e else base + e)
  return size.withSign n.negative

/-- The number that the parts stand for; none if it is too large for any. -/
def value? (n : Numeral) : Option Json :=
  let size := Text.digitsValue n.whole
  if n.fraction.isNone ∧ n.exponent.isNone then
    if n.negative then
      if size = 0 then some (.real (Binary64.zero true))
      else if (size : Int) ≤ -Text.minI64 then some (.int (-(size : Int)))
      else (realValue? n).map .real
    else if size ≤ Text.maxU64 then some (.int size)
    else (realValue? n).map .real
  else (realValue? n).map .real

end Numeral

end Turnstile.Json
