/-!
# Percent escapes

In a URL the byte with code `xy` in base sixteen may be written as a percent sign and the two
digits. `decode` turns such escapes back into bytes and leaves a percent sign alone that starts
none.
-/

namespace Turnstile.Text.Percent

/-- The value of a digit of base sixteen, in either case. -/
def hexValue? (b : UInt8) : Option UInt8 :=
  if 0x30 ≤ b ∧ b ≤ 0x39 then some (b - 0x30)
  else if 0x41 ≤ b ∧ b ≤ 0x46 then some (b - 0x41 + 10)
  else if 0x61 ≤ b ∧ b ≤ 0x66 then some (b - 0x61 + 10)
  else none

/-- The byte that the digits after a percent sign stand for. -/
def escaped? (high low : UInt8) : Option UInt8 :=
  match hexValue? high, hexValue? low with
  | some x, some y => some (x * 16 + y)
  | _, _ => none

/-- The bytes with every escape replaced by the byte it stands for. -/
def decode : List UInt8 → List UInt8
  | [] => []
  | [a] => [a]
  | [a, b] => [a, b]
  | a :: b :: c :: rest =>
    if a = 0x25 then
      match escaped? b c with
      | some x => x :: decode rest
      | none => a :: decode (b :: c :: rest)
    else a :: decode (b :: c :: rest)

/-- The text whose bytes are those of `s` with the escapes replaced, if those bytes are text. -/
def decodeText? (s : String) : Option String :=
  String.fromUTF8? ⟨(decode s.toUTF8.toList).toArray⟩

/-! ## Laws -/

/-- Without a percent sign nothing changes. -/
theorem decode_eq_self {bs : List UInt8} (h : 0x25 ∉ bs) : decode bs = bs := by
  fun_induction decode bs with
  | case1 => rfl
  | case2 => rfl
  | case3 => rfl
  | case4 => simp at h
  | case5 => simp at h
  | case6 a b c rest _ ih => rw [ih fun hm => h (List.mem_cons_of_mem _ hm)]

end Turnstile.Text.Percent
