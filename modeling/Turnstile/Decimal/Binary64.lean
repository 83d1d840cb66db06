/-!
# Binary fractions of double width

A number with a fraction is kept as `mantissa · 2 ^ exponent` with at most fifty-three bits of
mantissa. Arithmetic is exact on natural numbers first and rounded once at the end, to the nearest
such fraction and to the even one of two that are equally near.
-/

namespace Turnstile

/-- The number `mantissa · 2 ^ exponent`, negated when `negative`. -/
structure Binary64 where
  negative : Bool
  mantissa : Nat
  exponent : Int
deriving Repr, DecidableEq, Inhabited

namespace Binary64

def leastExponent : Int := -1074

def mostExponent : Int := 971

/-- The least mantissa that uses all fifty-three bits: the fifty-second power of two. -/
def leastNormal : Nat := 4503599627370496

def zero (negative : Bool) : Binary64 := ⟨negative, 0, leastExponent⟩

/-- Numerator and denominator of `num / den` in units of `2 ^ e`. -/
def inUnits (num den : Nat) (e : Int) : Nat × Nat :=
  if 0 ≤ e then (num, den * Nat.pow 2 e.toNat) else (num * Nat.pow 2 (-e).toNat, den)

/-- The integer nearest to `num / den`, the even one of two. -/
def nearestEven (num den : Nat) : Nat :=
  let q := num / den
  let r := num % den
  if 2 * r < den then q else if den < 2 * r then q + 1 else q + q % 2

/-- The power of two with `2 ^ p ≤ num / den < 2 ^ (p + 1)`. -/
def magnitude (num den : Nat) : Int :=
  let guess : Int := (Nat.log2 num : Int) - Nat.log2 den
  let (n, d) := inUnits num den guess
  if n < d then guess - 1 else guess

/-- The fraction nearest to `num / den`; none beyond the largest. -/
def ofRatio? (negative : Bool) (num den : Nat) : Option Binary64 :=
  if num = 0 then some (zero negative)
  else
    let e := max (magnitude num den - 52) leastExponent
    let (n, d) := inUnits num den e
    let m := nearestEven n d
    let (m, e) := if m = 2 * leastNormal then (leastNormal, e + 1) else (m, e)
    if mostExponent < e then none else some ⟨negative, m, e⟩

/-- The size of the number as numerator and denominator. -/
def ratio (x : Binary64) : Nat × Nat := inUnits x.mantissa 1 (-x.exponent)

def mul? (x y : Binary64) : Option Binary64 :=
  let (a, b) := x.ratio
  let (c, d) := y.ratio
  ofRatio? (x.negative != y.negative) (a * c) (b * d)

/-- The quotient, rounded; division by zero has none. -/
def div? (x y : Binary64) : Option Binary64 :=
  let (a, b) := x.ratio
  let (c, d) := y.ratio
  if c = 0 then none else ofRatio? (x.negative != y.negative) (a * d) (b * c)

def withSign (x : Binary64) (negative : Bool) : Binary64 := { x with negative := negative }

end Binary64

end Turnstile
