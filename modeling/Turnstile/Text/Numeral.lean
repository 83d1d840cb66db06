/-!
# Whole numbers in text

How a whole number is written in a setting: a sign that is allowed but not needed, then one or
more ASCII digits. Leading zeros do no harm; a number outside the range asked for is refused.
-/

namespace Turnstile.Text

/-- The number that a run of digits stands for, most significant digit first. -/
def digitsValue (ds : List Char) : Nat :=
  ds.foldl (fun n d => 10 * n + (d.toNat - '0'.toNat)) 0

def digits? (cs : List Char) : Option Nat :=
  if cs ≠ [] ∧ cs.all Char.isDigit = true then some (digitsValue cs) else none

/-- A natural number of at most `most`: digits, with a plus sign in front or none. -/
def natural? (most : Nat) (cs : List Char) : Option Nat :=
  let value := match cs with
    | '+' :: ds => digits? ds
    | ds => digits? ds
  value.filter (· ≤ most)

/-- An integer from `least` to `most`: digits, with a sign in front or none. -/
def integer? (least most : Int) (cs : List Char) : Option Int :=
  let value := match cs with
    | '+' :: ds => (digits? ds).map Int.ofNat
    | '-' :: ds => (digits? ds).map fun n => -(Int.ofNat n)
    | ds => (digits? ds).map Int.ofNat
  value.filter fun n => decide (least ≤ n ∧ n ≤ most)

/-! ## The ranges in use -/

def maxU16 : Nat := 65535

def maxU64 : Nat := 18446744073709551615

/-- The smallest signed number of sixty-four bits. -/
def minI64 : Int := -9223372036854775808

/-- The largest signed number of sixty-four bits. -/
def maxI64 : Int := 9223372036854775807

/-! ## Laws -/

theorem digitsValue_append (ds : List Char) (d : Char) :
    digitsValue (ds ++ [d]) = 10 * digitsValue ds + (d.toNat - '0'.toNat) := by
  simp [digitsValue]

theorem le_of_natural? {most n : Nat} {cs : List Char} (h : natural? most cs = some n) :
    n ≤ most := by
  unfold natural? at h
  simpa using (Option.filter_eq_some_iff.mp h).2

theorem range_of_integer? {least most n : Int} {cs : List Char}
    (h : integer? least most cs = some n) : least ≤ n ∧ n ≤ most := by
  unfold integer? at h
  simpa using (Option.filter_eq_some_iff.mp h).2

end Turnstile.Text
