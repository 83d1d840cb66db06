import Turnstile.Decimal.Binary64

/-!
# The shortest decimal text of a binary fraction

`shortest?` looks for the fewest decimal digits that still read back as the fraction, and of those
for the nearest. `text` lays them out: positional while the point stands within sixteen digits,
with an exponent otherwise, and never without a fraction or an exponent.
-/

namespace Turnstile.Binary64

/-- Lower end, value and upper end of the reals that round to `x`, in quarters of a unit. -/
def interval (x : Binary64) : Nat × Nat × Nat :=
  let v := 4 * x.mantissa
  let low := if x.mantissa = leastNormal ∧ leastExponent < x.exponent then v - 1 else v - 2
  (low, v, v + 2)

/-- The power of ten with `10 ^ p ≤ num / den < 10 ^ (p + 1)`, counted up from a low guess. -/
def decimalMagnitude (num den : Nat) : Int :=
  let guess : Int := (magnitude num den * 30103).fdiv 100000 - 1
  let reaches (p : Int) : Bool :=
    if 0 ≤ p then den * Nat.pow 10 p.toNat ≤ num else den ≤ num * Nat.pow 10 (-p).toNat
  let up (p : Int) : Int := if reaches (p + 1) then p + 1 else p
  up (up (up guess))

/-- The number of `count` digits on the grid of `10 ^ k` that is nearest to `x` and reads back. -/
def onGrid? (x : Binary64) (k : Int) : Option Nat :=
  let (low, value, high) := x.interval
  let unit (n : Nat) : Nat × Nat :=
    let (a, b) := inUnits n 4 (-x.exponent)
    if 0 ≤ k then (a, b * Nat.pow 10 k.toNat) else (a * Nat.pow 10 (-k).toNat, b)
  let (lowNum, den) := unit low
  let num := (unit value).1
  let highNum := (unit high).1
  let below := num / den
  let inside (d : Nat) : Bool :=
    if x.mantissa % 2 = 0 then lowNum ≤ d * den && d * den ≤ highNum
    else lowNum < d * den && d * den < highNum
  let near := nearestEven num den
  if 0 < near && inside near then some near
  else if 0 < below && inside below then some below
  else if inside (below + 1) then some (below + 1)
  else none

/-- The digits `d` and the exponent `k` of the shortest decimal `d · 10 ^ k` for `x ≠ 0`. -/
def shortest (x : Binary64) : Nat × Int :=
  let (num, den) := x.ratio
  let top := decimalMagnitude num den
  let found := (List.range 17).findSome? fun (i : Nat) =>
    let k := top - (i : Int)
    (x.onGrid? k).map fun d => (d, k)
  found.getD (0, 0)

/-- A number without the zeros at its end, and how many they were. -/
def dropZeros : Nat → Nat → Int → Nat × Int
  | 0, d, k => (d, k)
  | fuel + 1, d, k => if d % 10 = 0 ∧ d ≠ 0 then dropZeros fuel (d / 10) (k + 1) else (d, k)

/-- Where the decimal point may stand for a positional layout. -/
def positionalPlaces : Int := 16

/-- The decimal text: `0.1`, `12.0`, `1e16`, `1.5e-7`. -/
def text (x : Binary64) : List Char :=
  let sign := if x.negative then ['-'] else []
  if x.mantissa = 0 then sign ++ ['0', '.', '0']
  else
    let (d, k) := x.shortest
    let (d, k) := dropZeros 20 d k
    let digits := Nat.toDigits 10 d
    let point : Int := digits.length + k
    let body :=
      if 0 ≤ k ∧ point ≤ positionalPlaces then
        digits ++ List.replicate k.toNat '0' ++ ['.', '0']
      else if 0 < point ∧ point ≤ positionalPlaces then
        digits.take point.toNat ++ '.' :: digits.drop point.toNat
      else if -5 < point ∧ point ≤ 0 then
        ['0', '.'] ++ List.replicate (-point).toNat '0' ++ digits
      else
        let exponent := (toString (point - 1)).toList
        match digits with
        | [one] => one :: 'e' :: exponent
        | one :: more => one :: '.' :: more ++ 'e' :: exponent
        | [] => []
    sign ++ body

end Turnstile.Binary64
