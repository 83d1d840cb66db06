import Turnstile.Text.Percent

/-!
# What escapes do to a text

Undoing percent escapes never makes a text longer, and makes it shorter exactly if there is an
escape in it (`decodeText?_eq_self`, `length_utf8_lt`). The escapes are read in the bytes of
the text, but they can be seen in its characters (`escapes_utf8`): bytes of characters that are not
ASCII are neither percent signs nor digits.
-/

namespace Turnstile.Text.Percent

/-! ## Bytes of characters -/

def utf8 (cs : List Char) : List UInt8 := cs.flatMap String.utf8EncodeChar

theorem utf8_append (a b : List Char) : utf8 (a ++ b) = utf8 a ++ utf8 b := List.flatMap_append ..

theorem toList_loop (bs : ByteArray) (i : Nat) (r : List UInt8) :
    ByteArray.toList.loop bs i r = r.reverse ++ bs.data.toList.drop i := by
  fun_induction ByteArray.toList.loop bs i r with
  | case1 i r more ih =>
    have hlt : i < bs.data.toList.length := more
    have hbyte : bs.get! i = bs.data.toList[i] := by
      rw [Array.getElem_toList]
      exact getElem!_pos bs.data i more
    rw [ih, hbyte, List.reverse_cons, List.append_assoc, List.singleton_append,
      List.getElem_cons_drop]
  | case2 i r done =>
    have hlength : bs.data.toList.length ≤ i := Nat.not_lt.mp done
    rw [List.drop_of_length_le hlength, List.append_nil]

theorem toList_toUTF8 (s : String) : s.toUTF8.toList = utf8 s.toList := by
  have hbytes : s.toByteArray.toList = s.toByteArray.data.toList := toList_loop _ 0 []
  rw [String.toUTF8, hbytes, ← String.utf8Encode_toList, List.utf8Encode,
    List.toList_data_toByteArray]
  rfl

theorem toUTF8_eq (s : String) : s.toUTF8 = ⟨(utf8 s.toList).toArray⟩ := by
  have hlist : s.toUTF8.data.toList = utf8 s.toList := by
    rw [← toList_toUTF8]
    exact (toList_loop _ 0 []).symm
  apply ByteArray.ext
  rw [← hlist, Array.toArray_toList]

/-! ## Escapes in bytes -/

/-- Whether there is an escape among the bytes. -/
def escapes : List UInt8 → Bool
  | a :: b :: c :: rest => (a = 0x25 && (escaped? b c).isSome) || escapes (b :: c :: rest)
  | _ => false

theorem length_decode_le (bs : List UInt8) : (decode bs).length ≤ bs.length := by
  fun_induction decode bs <;> simp <;> omega

theorem decode_of_not_escapes {bs : List UInt8} (h : escapes bs = false) : decode bs = bs := by
  fun_induction decode bs with
  | case4 b c rest x hx => simp [escapes, hx] at h
  | case5 b c rest hnone ih =>
    rw [ih]
    simpa [escapes, hnone] using h
  | case6 a b c rest hne ih =>
    rw [ih]
    simpa [escapes, hne] using h
  | _ => rfl

theorem length_decode_lt {bs : List UInt8} (h : escapes bs = true) :
    (decode bs).length < bs.length := by
  fun_induction decode bs with
  | case4 b c rest x hx =>
    have hle := length_decode_le rest
    simp
    omega
  | case5 b c rest hnone ih =>
    have hlt := ih (by simpa [escapes, hnone] using h)
    simpa using hlt
  | case6 a b c rest hne ih =>
    have hlt := ih (by simpa [escapes, hne] using h)
    simpa using hlt
  | _ => simp [escapes] at h

/-! ## Escapes in characters -/

/-- Whether the character is a digit of base sixteen. -/
def isHexDigit (c : Char) : Bool :=
  c.isDigit || ('A' ≤ c && c ≤ 'F') || ('a' ≤ c && c ≤ 'f')

/-- Whether there is an escape among the characters. -/
def hasEscape : List Char → Bool
  | a :: b :: c :: rest =>
    (a = '%' && isHexDigit b && isHexDigit c) || hasEscape (b :: c :: rest)
  | _ => false

theorem escaped?_isSome (b c : UInt8) :
    (escaped? b c).isSome = ((hexValue? b).isSome && (hexValue? c).isSome) := by
  unfold escaped?
  cases hexValue? b <;> cases hexValue? c <;> rfl

theorem escapes_cons_of_ne {a : UInt8} (ha : a ≠ 0x25) (bs : List UInt8) :
    escapes (a :: bs) = escapes bs := by
  rcases bs with _ | ⟨b, _ | ⟨c, rest⟩⟩
  · rfl
  · rfl
  · simp [escapes, ha]

theorem hasEscape_cons_of_ne {a : Char} (ha : a ≠ '%') (cs : List Char) :
    hasEscape (a :: cs) = hasEscape cs := by
  rcases cs with _ | ⟨b, _ | ⟨c, rest⟩⟩
  · rfl
  · rfl
  · simp [hasEscape, ha]

theorem escapes_percent_of_not_digit {b : UInt8} (hb : hexValue? b = none) (bs : List UInt8) :
    escapes (0x25 :: b :: bs) = escapes (b :: bs) := by
  cases bs with
  | nil => rfl
  | cons c rest => simp [escapes, escaped?_isSome, hb]

theorem hasEscape_percent_of_not_digit {b : Char} (hb : isHexDigit b = false) (cs : List Char) :
    hasEscape ('%' :: b :: cs) = hasEscape (b :: cs) := by
  cases cs with
  | nil => rfl
  | cons c rest => simp [hasEscape, hb]

/-- Characters that are ASCII are written in one byte. -/
theorem utf8EncodeChar_of_ascii {c : Char} (hc : c.toNat < 128) :
    String.utf8EncodeChar c = [UInt8.ofNat c.toNat] := if_pos (Nat.le_of_lt_succ hc)

/-- The bytes of a character that is not ASCII are no ASCII. -/
theorem le_of_mem_utf8EncodeChar {c : Char} (hc : 128 ≤ c.toNat) :
    ∀ b ∈ String.utf8EncodeChar c, 128 ≤ b.toNat := by
  have hv : ¬ c.val.toNat ≤ 127 := Nat.not_le.mpr hc
  intro b hb
  unfold String.utf8EncodeChar at hb
  simp only [hv, if_false] at hb
  split at hb
  · simp only [List.mem_cons, List.not_mem_nil, or_false] at hb
    rcases hb with rfl | rfl <;> rw [UInt8.toNat_ofNat'] <;> omega
  · split at hb
    · simp only [List.mem_cons, List.not_mem_nil, or_false] at hb
      rcases hb with rfl | rfl | rfl <;> rw [UInt8.toNat_ofNat'] <;> omega
    · simp only [List.mem_cons, List.not_mem_nil, or_false] at hb
      rcases hb with rfl | rfl | rfl | rfl <;> rw [UInt8.toNat_ofNat'] <;> omega

/-- What holds of all ASCII characters by their numbers. -/
theorem forall_ascii {P : Char → Prop} (h : ∀ n < 128, P (Char.ofNat n)) {c : Char}
    (hc : c.toNat < 128) : P c := by
  have hp := h c.toNat hc
  rwa [Char.ofNat_toNat] at hp

theorem hexValue?_isSome_of_ascii {c : Char} (hc : c.toNat < 128) :
    (hexValue? (UInt8.ofNat c.toNat)).isSome = isHexDigit c :=
  forall_ascii (P := fun c => (hexValue? (UInt8.ofNat c.toNat)).isSome = isHexDigit c)
    (by decide +kernel) hc

theorem hexValue?_of_le {b : UInt8} (hb : 128 ≤ b.toNat) : hexValue? b = none := by
  unfold hexValue?
  simp only [UInt8.le_iff_toNat_le]
  rw [if_neg, if_neg, if_neg] <;> simp <;> omega

theorem isHexDigit_of_le {c : Char} (hc : 128 ≤ c.toNat) : isHexDigit c = false := by
  have hv : 128 ≤ c.val.toNat := hc
  simp [isHexDigit, Char.isDigit, Char.le_def, UInt32.le_iff_toNat_le]
  omega

/-- The first byte of a character is a digit exactly if the character is one. A digit has no other
bytes. -/
theorem utf8EncodeChar_cases (c : Char) :
    (isHexDigit c = true ∧ ∃ b, String.utf8EncodeChar c = [b] ∧ (hexValue? b).isSome = true) ∨
      (isHexDigit c = false ∧ ∃ b rest, String.utf8EncodeChar c = b :: rest ∧
        hexValue? b = none) := by
  by_cases hc : c.toNat < 128
  · have hhex := hexValue?_isSome_of_ascii hc
    rw [utf8EncodeChar_of_ascii hc]
    cases hdigit : isHexDigit c with
    | true => exact .inl ⟨rfl, _, rfl, hhex.trans hdigit⟩
    | false => exact .inr ⟨rfl, _, _, rfl, by simpa [hdigit] using hhex⟩
  · have hc : 128 ≤ c.toNat := Nat.not_lt.mp hc
    obtain ⟨b, rest, hbytes⟩ := List.exists_cons_of_ne_nil (String.utf8EncodeChar_ne_nil (c := c))
    refine .inr ⟨isHexDigit_of_le hc, b, rest, hbytes, hexValue?_of_le ?_⟩
    exact le_of_mem_utf8EncodeChar hc b (hbytes ▸ List.mem_cons_self ..)

/-- Bytes of a character that is no percent sign are passed over. -/
theorem escapes_append_of_ne {c : Char} (hc : c ≠ '%') (bs : List UInt8) :
    escapes (String.utf8EncodeChar c ++ bs) = escapes bs := by
  have hne : ∀ b ∈ String.utf8EncodeChar c, b ≠ 0x25 := by
    by_cases hascii : c.toNat < 128
    · rw [utf8EncodeChar_of_ascii hascii]
      have hall := forall_ascii
        (P := fun c => c = '%' ∨ UInt8.ofNat c.toNat ≠ 0x25) (by decide +kernel) hascii
      simpa using hall.resolve_left hc
    · rintro b hb rfl
      have hle := le_of_mem_utf8EncodeChar (Nat.not_lt.mp hascii) _ hb
      simp at hle
  generalize String.utf8EncodeChar c = bytes at hne
  induction bytes with
  | nil => rfl
  | cons b rest ih =>
    obtain ⟨hb, hrest⟩ := List.forall_mem_cons.mp hne
    rw [List.cons_append, escapes_cons_of_ne hb, ih hrest]

/-- A percent sign starts an escape exactly if two digits follow. -/
theorem escapes_percent (cs : List Char) (ih : escapes (utf8 cs) = hasEscape cs) :
    escapes (0x25 :: utf8 cs) = hasEscape ('%' :: cs) := by
  rcases cs with _ | ⟨a, cs⟩
  · rfl
  rw [utf8, List.flatMap_cons, ← utf8] at ih ⊢
  rcases utf8EncodeChar_cases a with ⟨ha, x, hx, hxhex⟩ | ⟨ha, x, more, hx, hxhex⟩
  · rcases cs with _ | ⟨b, cs⟩
    · rw [hx]
      rfl
    rw [utf8, List.flatMap_cons, ← utf8] at ih ⊢
    rw [hx, List.singleton_append] at ih ⊢
    rcases utf8EncodeChar_cases b with ⟨hb, y, hy, hyhex⟩ | ⟨hb, y, more, hy, hyhex⟩
    · rw [hy, List.singleton_append]
      simp [escapes, hasEscape, escaped?_isSome, ha, hb, hxhex, hyhex]
    · rw [hy, List.cons_append] at ih ⊢
      simp [escapes, hasEscape, escaped?_isSome, hb, hyhex, ih]
  · rw [hx, List.cons_append] at ih ⊢
    rw [escapes_percent_of_not_digit hxhex, hasEscape_percent_of_not_digit ha, ih]

/-- The escapes in the bytes of a text are those that are seen in its characters. -/
theorem escapes_utf8 (cs : List Char) : escapes (utf8 cs) = hasEscape cs := by
  induction cs with
  | nil => rfl
  | cons c cs ih =>
    rw [utf8, List.flatMap_cons, ← utf8]
    by_cases hc : c = '%'
    · subst hc
      rw [show String.utf8EncodeChar '%' = [0x25] from rfl, List.singleton_append]
      exact escapes_percent cs ih
    · rw [escapes_append_of_ne hc, hasEscape_cons_of_ne hc, ih]

/-! ## Texts -/

theorem decodeText?_eq (s : String) :
    decodeText? s = String.fromUTF8? ⟨(decode (utf8 s.toList)).toArray⟩ := by
  rw [decodeText?, toList_toUTF8]

/-- A text without escapes is read as it stands. -/
theorem decodeText?_eq_self {s : String} (h : hasEscape s.toList = false) :
    decodeText? s = some s := by
  have hdecode : decode (utf8 s.toList) = utf8 s.toList :=
    decode_of_not_escapes ((escapes_utf8 s.toList).trans h)
  rw [decodeText?_eq, hdecode, ← toUTF8_eq]
  exact dif_pos s.isValidUTF8

theorem length_utf8_of_decodeText? {s q : String} (h : decodeText? s = some q) :
    (utf8 q.toList).length = (decode (utf8 s.toList)).length := by
  rw [decodeText?_eq] at h
  unfold String.fromUTF8? at h
  split at h
  · cases h
    rw [← toList_toUTF8]
    exact congrArg List.length (toList_loop _ 0 [])
  · cases h

/-- Reading makes no text longer. -/
theorem length_utf8_le {s q : String} (h : decodeText? s = some q) :
    (utf8 q.toList).length ≤ (utf8 s.toList).length :=
  length_utf8_of_decodeText? h ▸ length_decode_le _

/-- Reading makes a text with escapes shorter. -/
theorem length_utf8_lt {s q : String} (h : decodeText? s = some q)
    (escaped : hasEscape s.toList = true) :
    (utf8 q.toList).length < (utf8 s.toList).length :=
  length_utf8_of_decodeText? h ▸ length_decode_lt ((escapes_utf8 s.toList).trans escaped)

end Turnstile.Text.Percent
