import Turnstile.Text.Numeral
import Turnstile.Text.Quoted

/-!
# Numbers written down and read back

A number that is written down in decimal is read back as it was (`integer?_toString`), and so is a
natural one that is written down in base sixteen (`hexDigitsValue_hexNumeral`).
-/

namespace Turnstile.Text

/-- What holds of every digit of a base holds of every character of a numeral. -/
theorem forall_mem_toDigits {base : Nat} (hbase : 1 < base) {P : Char → Prop}
    (digit : ∀ d < base, P (Nat.digitChar d)) (n : Nat) : ∀ c ∈ Nat.toDigits base n, P c := by
  induction n using Nat.strongRecOn with
  | ind n ih =>
    intro c hc
    rw [Nat.toDigits_eq_if hbase] at hc
    split at hc
    · obtain rfl : c = Nat.digitChar n := List.mem_singleton.mp hc
      exact digit n ‹_›
    · rename_i hlarge
      have hsmaller : n / base < n := Nat.div_lt_self (by omega) hbase
      rcases List.mem_append.mp hc with hc | hc
      · exact ih _ hsmaller c hc
      · obtain rfl : c = Nat.digitChar (n % base) := List.mem_singleton.mp hc
        exact digit _ (Nat.mod_lt _ (by omega))

/-! ## Base ten -/

theorem digitsValue_toDigits (n : Nat) : digitsValue (Nat.toDigits 10 n) = n :=
  Nat.ofDigitChars_ten_toDigits

theorem digits?_toDigits (n : Nat) : digits? (Nat.toDigits 10 n) = some n := by
  have hdigits : (Nat.toDigits 10 n).all Char.isDigit = true := by
    rw [List.all_eq_true]
    intro d hd
    exact Nat.isDigit_of_mem_toDigits (by decide) (Nat.le_refl 10) hd
  rw [digits?, if_pos ⟨Nat.toDigits_ne_nil, hdigits⟩, digitsValue_toDigits]

theorem toList_repr (n : Nat) : n.repr.toList = Nat.toDigits 10 n := by
  rw [Nat.repr_eq_ofList_toDigits, String.toList_ofList]

/-- A numeral has no sign in front. -/
theorem toDigits_ne_cons {c : Char} (hc : c.isDigit = false) (n : Nat) (ds : List Char) :
    Nat.toDigits 10 n ≠ c :: ds := by
  intro heq
  have hdigit : c.isDigit = true := Nat.isDigit_of_mem_toDigits (b := 10) (n := n) (by decide)
    (Nat.le_refl 10) (heq ▸ List.mem_cons_self ..)
  rw [hc] at hdigit
  cases hdigit

/-- A number in the range is read back from how it is written. -/
theorem integer?_toString {least most n : Int} (hleast : least ≤ n) (hmost : n ≤ most) :
    integer? least most (toString n).toList = some n := by
  unfold integer?
  cases n with
  | ofNat n =>
    rw [show toString (Int.ofNat n) = n.repr from rfl, toList_repr]
    split
    · exact absurd ‹_› (toDigits_ne_cons (c := '+') (by decide) n _)
    · exact absurd ‹_› (toDigits_ne_cons (c := '-') (by decide) n _)
    · rw [digits?_toDigits]
      exact if_pos (decide_eq_true ⟨hleast, hmost⟩)
  | negSucc n =>
    rw [show toString (Int.negSucc n) = "-" ++ (n + 1).repr from rfl, String.toList_append,
      toList_repr]
    show Option.filter _ ((digits? (Nat.toDigits 10 (n + 1))).map fun n => -(Int.ofNat n)) = _
    rw [digits?_toDigits]
    exact if_pos (decide_eq_true ⟨hleast, hmost⟩)

/-! ## Base sixteen -/

/-- The value of a digit of base sixteen, in lower case. -/
def hexDigitValue (d : Char) : Nat :=
  if d.isDigit then d.toNat - '0'.toNat else d.toNat - 'a'.toNat + 10

/-- The number that a run of digits of base sixteen stands for, most significant digit first. -/
def hexDigitsValue (ds : List Char) : Nat := ds.foldl (fun n d => 16 * n + hexDigitValue d) 0

theorem hexDigitValue_digitChar : ∀ d < 16, hexDigitValue (Nat.digitChar d) = d := by decide

theorem hexDigitsValue_append (ds : List Char) (d : Char) :
    hexDigitsValue (ds ++ [d]) = 16 * hexDigitsValue ds + hexDigitValue d := by
  simp [hexDigitsValue]

/-- A number is read back from its numeral in base sixteen. -/
theorem hexDigitsValue_hexNumeral (n : Nat) : hexDigitsValue (hexNumeral n) = n := by
  induction n using Nat.strongRecOn with
  | ind n ih =>
    rw [hexNumeral, Nat.toDigits_eq_if (by decide)]
    split
    · rename_i hsmall
      have hvalue := hexDigitValue_digitChar n hsmall
      simp [hexDigitsValue, hvalue]
    · have hrest : hexDigitsValue (Nat.toDigits 16 (n / 16)) = n / 16 := ih _ (by omega)
      have hlast := hexDigitValue_digitChar (n % 16) (by omega)
      rw [hexDigitsValue_append, hrest, hlast]
      omega

end Turnstile.Text
