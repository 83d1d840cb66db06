/-!
# Blank space

Which characters count as blank around a setting, an address or a header entry: the twenty-five
characters that Unicode calls white space. `trim` takes them off both ends.
-/

namespace Turnstile.Text

def isBlank (c : Char) : Bool :=
  let n := c.toNat
  (0x9 ≤ n && n ≤ 0xD) || n == 0x20 || n == 0x85 || n == 0xA0 || n == 0x1680
    || (0x2000 ≤ n && n ≤ 0x200A) || n == 0x2028 || n == 0x2029 || n == 0x202F
    || n == 0x205F || n == 0x3000

/-- The characters without the blank ones at either end. -/
def trimChars (cs : List Char) : List Char :=
  ((cs.dropWhile isBlank).reverse.dropWhile isBlank).reverse

/-- The text without blank space at either end. -/
def trim (s : String) : String := String.ofList (trimChars s.toList)

/-- A text with nothing but blank space in it. -/
def isBlankText (s : String) : Bool := s.toList.all isBlank

/-! ## Laws -/

/-- Every character that core calls white space is blank. -/
theorem isBlank_of_isWhitespace {c : Char} (h : c.isWhitespace = true) : isBlank c = true := by
  simp only [Char.isWhitespace, Bool.or_eq_true, decide_eq_true_eq] at h
  rcases h with ((h | h) | h) | h <;> subst h <;> decide

theorem dropWhile_isBlank_eq_nil {cs : List Char} (h : cs.all isBlank = true) :
    cs.dropWhile isBlank = [] := by
  induction cs with
  | nil => rfl
  | cons c rest ih =>
    simp only [List.all_cons, Bool.and_eq_true] at h
    simp [h.1, ih h.2]

theorem trimChars_eq_nil {cs : List Char} (h : cs.all isBlank = true) : trimChars cs = [] := by
  simp [trimChars, dropWhile_isBlank_eq_nil h]

end Turnstile.Text
