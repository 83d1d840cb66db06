import Mathlib.Data.List.TakeWhile
import Mathlib.Data.Nat.Digits.Lemmas
import Turnstile.Text.Blank
import Turnstile.Text.Numeral

/-!
# What may be written for what

The texts that stand for a number or a word, told without a reader: a core with blank space around
it (`Trims`), digits in their places (`IsNumeral`) with a sign in front or none (`Natural`,
`Integer`), and a word with any of its letters in upper case (`Spells`). The readers of these forms
accept exactly these texts and give exactly what they stand for.
-/

namespace Turnstile.Text

/-! ## Blank space around a text -/

/-- The core is what is left of the characters when the blank ones at both ends are gone. -/
structure Trims (cs core : List Char) : Prop where
  framed : ∃ before after, cs = before ++ core ++ after ∧ (∀ c ∈ before, isBlank c = true) ∧
    ∀ c ∈ after, isBlank c = true
  first : ∀ c ∈ core.head?, isBlank c = false
  last : ∀ c ∈ core.getLast?, isBlank c = false

/-- Nothing is dropped in front of a character that is not blank. -/
theorem dropWhile_isBlank_eq_self {cs : List Char} (h : ∀ c ∈ cs.head?, isBlank c = false) :
    cs.dropWhile isBlank = cs := by
  cases cs with
  | nil => rfl
  | cons c rest => exact List.dropWhile_cons_of_neg (by simp [h c rfl])

theorem not_isBlank_head?_dropWhile (cs : List Char) :
    ∀ c ∈ (cs.dropWhile isBlank).head?, isBlank c = false := by
  intro c hc
  have hhead := List.head?_dropWhile_not isBlank cs
  rw [Option.mem_def.mp hc] at hhead
  exact hhead

theorem trimChars_of_trims {cs core : List Char} (h : Trims cs core) : trimChars cs = core := by
  obtain ⟨⟨before, after, rfl, hbefore, hafter⟩, first, last⟩ := h
  have hback : ∀ c ∈ after.reverse, isBlank c = true := fun c hc =>
    hafter c (List.mem_reverse.mp hc)
  rw [trimChars, List.append_assoc, List.dropWhile_append_of_pos hbefore]
  cases core with
  | nil =>
    rw [List.nil_append, dropWhile_isBlank_eq_nil (List.all_eq_true.mpr hafter)]
    rfl
  | cons c core =>
    have hfront : ∀ d ∈ ((c :: core) ++ after).head?, isBlank d = false := first
    rw [dropWhile_isBlank_eq_self hfront, List.reverse_append, List.dropWhile_append_of_pos hback,
      dropWhile_isBlank_eq_self (by rwa [List.head?_reverse]), List.reverse_reverse]

theorem trims_trimChars (cs : List Char) : Trims cs (trimChars cs) := by
  have hcs : cs.takeWhile isBlank ++ cs.dropWhile isBlank = cs := List.takeWhile_append_dropWhile
  generalize hrest : cs.dropWhile isBlank = rest at hcs
  have hfirst : ∀ c ∈ rest.head?, isBlank c = false :=
    hrest ▸ not_isBlank_head?_dropWhile cs
  have hback : rest = (rest.reverse.dropWhile isBlank).reverse ++
      (rest.reverse.takeWhile isBlank).reverse := by
    rw [← List.reverse_append, List.takeWhile_append_dropWhile, List.reverse_reverse]
  have hcore : trimChars cs = (rest.reverse.dropWhile isBlank).reverse := by
    rw [trimChars, hrest]
  rw [hcore]
  refine ⟨⟨cs.takeWhile isBlank, (rest.reverse.takeWhile isBlank).reverse, ?_, ?_, ?_⟩, ?_, ?_⟩
  · rw [List.append_assoc, ← hback, hcs]
  · exact fun c hc => List.mem_takeWhile_imp hc
  · exact fun c hc => List.mem_takeWhile_imp (List.mem_reverse.mp hc)
  · intro c hc
    refine hfirst c ?_
    rw [hback]
    exact List.mem_head?_append_of_mem_head? hc
  · intro c hc
    rw [List.getLast?_reverse] at hc
    exact not_isBlank_head?_dropWhile _ c hc

/-- Blank space is taken off both ends, and nothing else is. -/
theorem trimChars_eq_iff {cs core : List Char} : trimChars cs = core ↔ Trims cs core :=
  ⟨fun h => h ▸ trims_trimChars cs, trimChars_of_trims⟩

/-! ## Numbers -/

/-- The value of a decimal digit. -/
def digitValue (d : Char) : Nat := d.toNat - '0'.toNat

/-- One or more ASCII digits, and the number that they are in the decimal system. -/
def IsNumeral (ds : List Char) (n : Nat) : Prop :=
  ds ≠ [] ∧ (∀ d ∈ ds, d.isDigit = true) ∧ n = Nat.ofDigits 10 (ds.reverse.map digitValue)

/-- A natural number may have a plus sign. -/
inductive Natural : List Char → Nat → Prop where
  | bare {ds : List Char} {n : Nat} (digits : IsNumeral ds n) : Natural ds n
  | plus {ds : List Char} {n : Nat} (digits : IsNumeral ds n) : Natural ('+' :: ds) n

/-- An integer may have a sign of either kind. -/
inductive Integer : List Char → Int → Prop where
  | bare {ds : List Char} {n : Nat} (digits : IsNumeral ds n) : Integer ds n
  | plus {ds : List Char} {n : Nat} (digits : IsNumeral ds n) : Integer ('+' :: ds) n
  | minus {ds : List Char} {n : Nat} (digits : IsNumeral ds n) : Integer ('-' :: ds) (-n)

/-- Digits are read by their places. -/
theorem digitsValue_eq_ofDigits (ds : List Char) :
    digitsValue ds = Nat.ofDigits 10 (ds.reverse.map digitValue) := by
  induction ds using List.reverseRecOn with
  | nil => rfl
  | append_singleton ds d ih =>
    rw [digitsValue_append, ih, List.reverse_append, List.map_append, List.reverse_singleton,
      List.map_singleton, List.singleton_append, Nat.ofDigits_cons, digitValue, Nat.add_comm]

theorem digits?_eq_some_iff {cs : List Char} {n : Nat} : digits? cs = some n ↔ IsNumeral cs n := by
  rw [digits?, IsNumeral, ← digitsValue_eq_ofDigits]
  split
  · rename_i h
    rw [Option.some.injEq]
    exact ⟨fun hn => ⟨h.1, List.all_eq_true.mp h.2, hn.symm⟩, fun hn => hn.2.2.symm⟩
  · rename_i h
    simp only [reduceCtorEq, false_iff]
    exact fun hn => h ⟨hn.1, List.all_eq_true.mpr hn.2.1⟩

/-- A sign is no digit. -/
theorem not_isNumeral_cons {c : Char} (hc : c.isDigit = false) (ds : List Char) (n : Nat) :
    ¬IsNumeral (c :: ds) n := by
  intro h
  have hdigit := h.2.1 c (List.mem_cons_self ..)
  rw [hc] at hdigit
  cases hdigit

theorem natural_plus_iff {ds : List Char} {n : Nat} : Natural ('+' :: ds) n ↔ IsNumeral ds n := by
  constructor
  · intro h
    cases h with
    | bare digits => exact absurd digits (not_isNumeral_cons (by decide) ds n)
    | plus digits => exact digits
  · exact .plus

theorem natural?_eq_some_iff {most n : Nat} {cs : List Char} :
    natural? most cs = some n ↔ Natural cs n ∧ n ≤ most := by
  unfold natural?
  rw [Option.filter_eq_some_iff, decide_eq_true_eq]
  refine and_congr_left fun _ => ?_
  split
  · rw [digits?_eq_some_iff, natural_plus_iff]
  · rename_i hplus
    rw [digits?_eq_some_iff]
    refine ⟨.bare, fun h => ?_⟩
    cases h with
    | bare digits => exact digits
    | plus digits => exact absurd rfl (hplus _)

theorem integer_plus_iff {ds : List Char} {n : Int} :
    Integer ('+' :: ds) n ↔ ∃ m : Nat, IsNumeral ds m ∧ (m : Int) = n := by
  constructor
  · intro h
    cases h with
    | bare digits => exact absurd digits (not_isNumeral_cons (by decide) ds _)
    | plus digits => exact ⟨_, digits, rfl⟩
  · rintro ⟨m, digits, rfl⟩
    exact .plus digits

theorem integer_minus_iff {ds : List Char} {n : Int} :
    Integer ('-' :: ds) n ↔ ∃ m : Nat, IsNumeral ds m ∧ -(m : Int) = n := by
  constructor
  · intro h
    cases h with
    | bare digits => exact absurd digits (not_isNumeral_cons (by decide) ds _)
    | minus digits => exact ⟨_, digits, rfl⟩
  · rintro ⟨m, digits, rfl⟩
    exact .minus digits

theorem integer?_eq_some_iff {least most n : Int} {cs : List Char} :
    integer? least most cs = some n ↔ Integer cs n ∧ least ≤ n ∧ n ≤ most := by
  unfold integer?
  rw [Option.filter_eq_some_iff, decide_eq_true_eq]
  refine and_congr_left fun _ => ?_
  split
  · simp only [Option.map_eq_some_iff, digits?_eq_some_iff, integer_plus_iff, Int.ofNat_eq_natCast]
  · simp only [Option.map_eq_some_iff, digits?_eq_some_iff, integer_minus_iff,
      Int.ofNat_eq_natCast]
  · rename_i hplus hminus
    simp only [Option.map_eq_some_iff, digits?_eq_some_iff, Int.ofNat_eq_natCast]
    constructor
    · rintro ⟨m, digits, rfl⟩
      exact .bare digits
    · intro h
      cases h with
      | bare digits => exact ⟨_, digits, rfl⟩
      | plus digits => exact absurd rfl (hplus _)
      | minus digits => exact absurd rfl (hminus _)

/-! ## Words -/

/-- The word with any of its letters in upper case. -/
def Spells (cs : List Char) (word : String) : Prop :=
  List.Forall₂ (fun c d => c = d ∨ c = d.toUpper) cs word.toList

theorem toNat_toLower (c : Char) : c.toLower.toNat =
    if 65 ≤ c.toNat ∧ c.toNat ≤ 90 then c.toNat + 32 else c.toNat := by
  have hle : ∀ m n : UInt32, m ≤ n ↔ m.toNat ≤ n.toNat := fun _ _ => UInt32.le_iff_toNat_le
  have hcapital : (c.val ≥ 'A'.val ∧ c.val ≤ 'Z'.val) ↔ 65 ≤ c.toNat ∧ c.toNat ≤ 90 :=
    and_congr (hle ..) (hle ..)
  unfold Char.toLower
  split
  · rename_i h
    rw [if_pos (hcapital.mp h)]
    have hadd : (c.val + 32).toNat = (c.toNat + 32) % 4294967296 := UInt32.toNat_add ..
    have hbound := (hcapital.mp h).2
    exact hadd.trans (Nat.mod_eq_of_lt (by omega))
  · rename_i h
    rw [if_neg fun h' => h (hcapital.mpr h')]

theorem toNat_toUpper (c : Char) : c.toUpper.toNat =
    if 97 ≤ c.toNat ∧ c.toNat ≤ 122 then c.toNat - 32 else c.toNat := by
  have hle : ∀ m n : UInt32, m ≤ n ↔ m.toNat ≤ n.toNat := fun _ _ => UInt32.le_iff_toNat_le
  have hsmall : ('a'.val ≤ c.val ∧ c.val ≤ 'z'.val) ↔ 97 ≤ c.toNat ∧ c.toNat ≤ 122 :=
    and_congr (hle ..) (hle ..)
  unfold Char.toUpper
  split
  · rename_i h
    rw [if_pos (hsmall.mp h)]
    have hadd : (c.val + ('A'.val - 'a'.val)).toNat = (c.toNat + 4294967264) % 4294967296 :=
      UInt32.toNat_add ..
    have hbound := hsmall.mp h
    refine hadd.trans ?_
    omega
  · rename_i h
    rw [if_neg fun h' => h (hsmall.mpr h')]

/-- Only a letter and its capital become the letter in lower case. -/
theorem toLower_eq_iff {c d : Char} (lower : ¬(65 ≤ d.toNat ∧ d.toNat ≤ 90)) :
    c.toLower = d ↔ c = d ∨ c = d.toUpper := by
  rw [← Char.toNat_inj, ← Char.toNat_inj, ← Char.toNat_inj, toNat_toLower, toNat_toUpper]
  split <;> split <;> omega

/-- A text is a word in lower case once its own letters are in lower case. -/
theorem map_toLower_eq_iff {cs : List Char} {word : String}
    (lower : ∀ d ∈ word.toList, ¬(65 ≤ d.toNat ∧ d.toNat ≤ 90)) :
    cs.map Char.toLower = word.toList ↔ Spells cs word := by
  unfold Spells
  generalize word.toList = ds at lower
  induction ds generalizing cs with
  | nil => simp
  | cons d ds ih =>
    cases cs with
    | nil => simp
    | cons c cs =>
      have hd : c.toLower = d ↔ c = d ∨ c = d.toUpper :=
        toLower_eq_iff (lower d (List.mem_cons_self ..))
      have hrest := @ih cs fun e he => lower e (List.mem_cons_of_mem d he)
      rw [List.map_cons, List.cons_eq_cons, List.forall₂_cons, hd, hrest]

end Turnstile.Text
