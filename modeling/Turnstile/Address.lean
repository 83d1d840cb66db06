import Turnstile.Text.Quoted

/-!
# Addresses

The address of a peer and its text. An address of the sixth version is eight groups in base
sixteen; the first of its longest runs of two or more zero groups is written as a double colon, and
an address that carries one of the fourth version shows that one in its own form.
-/

namespace Turnstile

inductive Address where
  | v4 (a b c d : UInt8)
  | v6 (a b c d e f g h : UInt16)
deriving DecidableEq, Repr

namespace Address

/-- Four numbers in base ten with points between them. -/
def dotted (a b c d : Nat) : String :=
  toString a ++ "." ++ toString b ++ "." ++ toString c ++ "." ++ toString d

/-- Length of the run of zero groups at the front. -/
def zeroRun (groups : List UInt16) : Nat := (groups.takeWhile (· = 0)).length

/-- Start and length of the longest run of zero groups, the first of several. -/
def longestZeroRun : List UInt16 → Nat × Nat
  | [] => (0, 0)
  | g :: rest =>
    let here := zeroRun (g :: rest)
    let (start, length) := longestZeroRun rest
    if 0 < here ∧ length ≤ here then (0, here) else (start + 1, length)

/-- Groups in base sixteen with colons between them. -/
def groupText (groups : List UInt16) : String :=
  ":".intercalate (groups.map fun g => String.ofList (Text.hexNumeral g.toNat))

def compressed (groups : List UInt16) : String :=
  let (start, length) := longestZeroRun groups
  if 1 < length then
    groupText (groups.take start) ++ "::" ++ groupText (groups.drop (start + length))
  else groupText groups

def text : Address → String
  | .v4 a b c d => dotted a.toNat b.toNat c.toNat d.toNat
  | .v6 a b c d e f g h =>
    if [a, b, c, d, e] = [0, 0, 0, 0, 0] ∧ f = 0xFFFF then
      "::ffff:" ++ dotted (g.toNat / 256) (g.toNat % 256) (h.toNat / 256) (h.toNat % 256)
    else compressed [a, b, c, d, e, f, g, h]

end Address

end Turnstile
