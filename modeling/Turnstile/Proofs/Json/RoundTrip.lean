import Mathlib.Tactic.SplitIfs
import Turnstile.Json.Printer
import Turnstile.Json.Reader
import Turnstile.Proofs.Text.Numeral

/-!
# Values written and read back

The text of a value is read back as the value (`value?_chars`), as long as its numbers are whole and
have sixty-four bits, its objects have their fields in order, and it nests no deeper than the reader
goes. A deeper one is refused.

What comes after a value in a text does not matter to strings, and to numbers only in that it must
not go on with one (`Ends`).
-/

namespace Turnstile.Json

/-! ## Strings -/

/-- Four digits of base sixteen that name no half of a pair are one character, whatever comes after
them. -/
theorem stringBody?_unit {a b c d : Char} {x : Nat} (rest : List Char)
    (unit : unit? a b c d = some x) (high : isHighSurrogate x = false)
    (low : isLowSurrogate x = false) :
    stringBody? .meaning ('\\' :: 'u' :: a :: b :: c :: d :: rest) =
      (stringBody? .meaning rest).map (push (Char.ofNat x)) := by
  by_cases pair : ∃ e f g h more, rest = '\\' :: 'u' :: e :: f :: g :: h :: more
  · obtain ⟨e, f, g, h, more, rfl⟩ := pair
    simp [stringBody?, unit, high, low]
  · rw [stringBody?.eq_3 _ _ _ _ _ _ fun e f g h more heq => pair ⟨e, f, g, h, more, heq⟩]
    simp [unit, high, low]

theorem stringBody?_escape {c x : Char} (rest : List Char) (hu : c ≠ 'u')
    (escaped : escape? c = some x) :
    stringBody? .meaning ('\\' :: c :: rest) = (stringBody? .meaning rest).map (push x) := by
  rw [stringBody?.eq_4 _ _ _ (fun _ _ _ _ _ _ _ _ _ h _ => hu h) (fun _ _ _ _ _ h _ => hu h),
    escaped]

theorem stringBody?_plain {c : Char} (rest : List Char) (quote : c ≠ '"') (backslash : c ≠ '\\')
    (control : ¬c.toNat < 0x20) :
    stringBody? .meaning (c :: rest) = (stringBody? .meaning rest).map (push c) := by
  rw [stringBody?.eq_5 _ _ _ quote (fun _ _ _ _ _ _ _ _ _ h _ => backslash h)
    (fun _ _ _ _ _ h _ => backslash h) (fun _ _ h _ => backslash h), if_neg control]

/-- The four digits of a control are read as its number. -/
theorem unit?_fourHex : ∀ n < 0x20,
    unit? (Text.hexDigit (n / 4096 % 16)) (Text.hexDigit (n / 256 % 16))
      (Text.hexDigit (n / 16 % 16)) (Text.hexDigit (n % 16)) = some n ∧
      isHighSurrogate n = false ∧ isLowSurrogate n = false := by
  decide

/-- What is written for a character is read as the character. -/
theorem stringBody?_stringChar (c : Char) (rest : List Char) :
    stringBody? .meaning (stringChar .unicode c ++ rest) =
      (stringBody? .meaning rest).map (push c) := by
  unfold stringChar
  split_ifs with quote backslash h h h h h control h
  · rw [quote]
    exact stringBody?_escape rest (by decide) (by decide)
  · rw [backslash]
    exact stringBody?_escape rest (by decide) (by decide)
  iterate 5
    · rw [h]
      exact stringBody?_escape rest (by decide) (by decide)
  · obtain ⟨unit, high, low⟩ := unit?_fourHex c.toNat control
    exact (stringBody?_unit rest unit high low).trans (by rw [Char.ofNat_toNat])
  · exact absurd h.1 (by decide)
  · exact stringBody?_plain rest quote backslash control

theorem stringBody?_stringChars (cs rest : List Char) :
    stringBody? .meaning (cs.flatMap (stringChar .unicode) ++ '"' :: rest) = some (cs, rest) := by
  induction cs with
  | nil => exact stringBody?.eq_1 .meaning rest
  | cons c cs ih =>
    rw [List.flatMap_cons, List.append_assoc, stringBody?_stringChar, ih]
    rfl

/-- The text of a string is read back as the string. -/
theorem string?_stringChars (s : String) (rest : List Char) :
    string? .meaning (stringChars .unicode s ++ rest) = some (s, rest) := by
  have hchars : stringChars .unicode s ++ rest =
      '"' :: (s.toList.flatMap (stringChar .unicode) ++ '"' :: rest) := by
    simp [stringChars]
  rw [hchars, string?, stringBody?_stringChars]
  simp only [Option.map_some, String.ofList_toList]

/-! ## Numbers -/

/-- A text at which a number ends: there is none, or it begins with what may follow a value. -/
def Ends (rest : List Char) : Prop := ∀ c ∈ rest.head?, c ∈ [',', ']', '\x7d']

theorem ends_cons {c : Char} {rest : List Char} (hc : c ∈ [',', ']', '\x7d']) :
    Ends (c :: rest) := by
  rintro _ ⟨⟩
  exact hc

/-- A numeral that begins with a zero is the zero. -/
theorem eq_nil_of_toDigits_eq {n : Nat} {ds : List Char} (h : Nat.toDigits 10 n = '0' :: ds) :
    ds = [] := by
  induction n using Nat.strongRecOn generalizing ds with
  | ind n ih =>
    rw [Nat.toDigits_eq_if (by decide)] at h
    split at h
    · exact (List.cons.inj h).2.symm
    · rename_i large
      cases hfront : Nat.toDigits 10 (n / 10) with
      | nil => exact absurd hfront Nat.toDigits_ne_nil
      | cons d front =>
        rw [hfront, List.cons_append] at h
        obtain rfl : d = '0' := (List.cons.inj h).1
        obtain rfl := ih (n / 10) (by omega) hfront
        have hzero := Text.digitsValue_toDigits (n / 10)
        rw [hfront, show Text.digitsValue ['0'] = 0 from rfl] at hzero
        omega

theorem isDigit_of_mem_toDigits {n : Nat} {d : Char} (h : d ∈ Nat.toDigits 10 n) :
    d.isDigit = true :=
  Nat.isDigit_of_mem_toDigits (by decide) (Nat.le_refl 10) h

namespace Numeral

variable {rest : List Char}

theorem not_isDigit_of_ends (ends : Ends rest) : ∀ c ∈ rest.head?, ¬c.isDigit = true := by
  intro c hc
  have closing : ∀ c ∈ [',', ']', '\x7d'], ¬c.isDigit = true := by simp
  exact closing c (ends c hc)

theorem digits_toDigits (n : Nat) (ends : Ends rest) :
    digits (Nat.toDigits 10 n ++ rest) = (Nat.toDigits 10 n, rest) := by
  have all : ∀ d ∈ Nat.toDigits 10 n, d.isDigit = true := fun d => isDigit_of_mem_toDigits
  have stop := not_isDigit_of_ends ends
  rw [digits, List.takeWhile_append_of_pos all, List.dropWhile_append_of_pos all]
  cases rest with
  | nil => simp
  | cons c rest =>
    have hc := stop c rfl
    simp [hc]

theorem whole?_toDigits (n : Nat) (ends : Ends rest) :
    whole? (Nat.toDigits 10 n ++ rest) = some (Nat.toDigits 10 n, rest) := by
  have hdigits := digits_toDigits n ends
  have leading : ∀ ds, Nat.toDigits 10 n = '0' :: ds → ds = [] := fun _ => eq_nil_of_toDigits_eq
  have nonempty : Nat.toDigits 10 n ≠ [] := Nat.toDigits_ne_nil
  rw [whole?, hdigits]
  generalize Nat.toDigits 10 n = ds at leading nonempty
  split
  · simp_all
  · simp_all
  · simp_all
  · simp_all

theorem fraction?_of_ends (ends : Ends rest) : fraction? rest = some (none, rest) := by
  unfold fraction?
  split
  · exact absurd (ends _ rfl) (by decide)
  · rfl

theorem exponent?_of_ends (ends : Ends rest) : exponent? rest = some (none, rest) := by
  unfold exponent?
  split
  · exact absurd (ends _ rfl) (by decide)
  · exact absurd (ends _ rfl) (by decide)
  · rfl

/-- After its sign, a numeral is scanned up to its end. -/
theorem scan?_of_sign {s : List Char} {negative : Bool} {n : Nat} (ends : Ends rest)
    (h : sign s = (negative, Nat.toDigits 10 n ++ rest)) :
    scan? s = some (⟨negative, Nat.toDigits 10 n, none, none⟩, rest) := by
  simp [scan?, h, whole?_toDigits n ends, fraction?_of_ends ends, exponent?_of_ends ends]

/-- There is no sign in front of a digit. -/
theorem sign_toDigits (n : Nat) (rest : List Char) :
    sign (Nat.toDigits 10 n ++ rest) = (false, Nat.toDigits 10 n ++ rest) := by
  unfold sign
  split
  · rename_i s h
    cases hdigits : Nat.toDigits 10 n with
    | nil => exact absurd hdigits Nat.toDigits_ne_nil
    | cons d ds =>
      rw [hdigits] at h
      obtain rfl : d = '-' := (List.cons.inj h).1
      exact absurd hdigits (Text.toDigits_ne_cons (by decide) n ds)
  · rfl

end Numeral

/-- A whole number of sixty-four bits is read back. -/
theorem number?_intChars {n : Int} {rest : List Char} (low : Text.minI64 ≤ n)
    (high : n ≤ Text.maxU64) (ends : Ends rest) :
    number? .meaning (intChars n ++ rest) = some (.int n, rest) := by
  unfold number?
  cases n with
  | ofNat n =>
    have fits : n ≤ Text.maxU64 := Int.ofNat_le.mp high
    rw [intChars, Numeral.scan?_of_sign ends (Numeral.sign_toDigits n rest)]
    simp [Numeral.value?, Text.digitsValue_toDigits, fits]
  | negSucc n =>
    have hsign : Numeral.sign (intChars (.negSucc n) ++ rest) =
        (true, Nat.toDigits 10 (n + 1) ++ rest) := rfl
    have fits : (n : Int) + 1 ≤ -Text.minI64 := by
      rw [Int.negSucc_eq] at low
      omega
    rw [Numeral.scan?_of_sign ends hsign]
    simp [Numeral.value?, Text.digitsValue_toDigits, fits, Int.negSucc_eq]

/-! ## Values -/

mutual

/-- How deep a value nests. -/
def depth : Json → Nat
  | .arr items => itemDepth items + 1
  | .obj fields => fieldDepth fields + 1
  | _ => 0

def itemDepth : List Json → Nat
  | [] => 0
  | item :: rest => max (depth item) (itemDepth rest)

def fieldDepth : List (String × Json) → Nat
  | [] => 0
  | (_, value) :: rest => max (depth value) (fieldDepth rest)

end

/-- A value that a text stands for in one way: its numbers are whole and have sixty-four bits, and
its objects have each name once, in order. -/
inductive Canonical : Json → Prop where
  | null : Canonical .null
  | bool (b : Bool) : Canonical (.bool b)
  | int {n : Int} (low : Text.minI64 ≤ n) (high : n ≤ Text.maxU64) : Canonical (.int n)
  | str (s : String) : Canonical (.str s)
  | arr {items : List Json} (each : ∀ v ∈ items, Canonical v) : Canonical (.arr items)
  | obj {fields : List (String × Json)} (sorted : fields.Pairwise fun f g => f.1 < g.1)
    (each : ∀ f ∈ fields, Canonical f.2) : Canonical (.obj fields)

/-- A field that comes after all others is put at the end. -/
theorem insertField_of_last {name : String} {value : Json} {fields : List (String × Json)}
    (last : ∀ f ∈ fields, f.1 < name) :
    insertField name value fields = fields ++ [(name, value)] := by
  induction fields with
  | nil => rfl
  | cons f rest ih =>
    obtain ⟨hf, last⟩ := List.forall_mem_cons.mp last
    rw [insertField, if_neg (String.ne_of_lt hf).symm, if_neg (String.lt_asymm hf), ih last,
      List.cons_append]

theorem foldl_insertField {fields : List (String × Json)} {done : List (String × Json)}
    (sorted : (done ++ fields).Pairwise fun f g => f.1 < g.1) :
    fields.foldl (fun sorted f => insertField f.1 f.2 sorted) done = done ++ fields := by
  induction fields generalizing done with
  | nil => simp
  | cons f rest ih =>
    have last : ∀ g ∈ done, g.1 < f.1 := fun g hg =>
      (List.pairwise_append.mp sorted).2.2 g hg f (List.mem_cons_self ..)
    rw [List.foldl_cons, insertField_of_last last, ih (by simpa using sorted), List.append_assoc,
      List.singleton_append]

/-- Fields that are in order stay as they are. -/
theorem ofFields_of_sorted {fields : List (String × Json)}
    (sorted : fields.Pairwise fun f g => f.1 < g.1) : ofFields fields = .obj fields := by
  rw [ofFields, foldl_insertField (by simpa using sorted), List.nil_append]

/-! ## Reading what was written -/

theorem skipSpace_cons {c : Char} {s : List Char} (hc : isSpace c = false) :
    skipSpace (c :: s) = c :: s :=
  List.dropWhile_cons_of_neg (by simp [hc])

/-- A character with which the text of a number begins. -/
def Leads (c : Char) : Prop := c = '-' ∨ c.isDigit = true

theorem intChars_eq_cons (n : Int) : ∃ c s, intChars n = c :: s ∧ Leads c := by
  cases n with
  | ofNat n =>
    cases h : Nat.toDigits 10 n with
    | nil => exact absurd h Nat.toDigits_ne_nil
    | cons c s => exact ⟨c, s, h, .inr (isDigit_of_mem_toDigits (h ▸ List.mem_cons_self ..))⟩
  | negSucc n => exact ⟨'-', _, rfl, .inl rfl⟩

theorem Leads.ne {c d : Char} (h : Leads c) (hd : d ≠ '-' ∧ d.isDigit = false) : c ≠ d := by
  rintro rfl
  rcases h with rfl | h
  · exact hd.1 rfl
  · rw [hd.2] at h
    cases h

theorem Leads.isSpace_eq {c : Char} (h : Leads c) : isSpace c = false := by
  simp [isSpace, h.ne (d := ' ') (by decide), h.ne (d := '\n') (by decide),
    h.ne (d := '\t') (by decide), h.ne (d := '\r') (by decide)]

theorem value?_of_leads {c : Char} (d : Nat) (s : List Char) (h : Leads c) :
    value? .meaning d (c :: s) = number? .meaning (c :: s) := by
  rw [value?.eq_1, skipSpace_cons h.isSpace_eq]
  split
  all_goals first | rfl | skip
  all_goals
    rename_i heq
    obtain rfl := (List.cons.inj heq).1
    exact absurd rfl (h.ne (by decide))

theorem value?_str (d : Nat) (s : String) (rest : List Char) :
    value? .meaning d (stringChars .unicode s ++ rest) = some (.str s, rest) := by
  have hstring := string?_stringChars s rest
  generalize hchars : stringChars .unicode s ++ rest = text at hstring
  have hcons : text = '"' :: (s.toList.flatMap (stringChar .unicode) ++ ['"'] ++ rest) := by
    rw [← hchars]
    simp [stringChars]
  rw [hcons] at hstring ⊢
  rw [value?.eq_1, skipSpace_cons (by decide)]
  simp only [hstring, Option.map_some]

/-- The reader reads the text of the value as the value, or refuses it if it nests too deep. -/
def Inverts (item : Reader) (d : Nat) (v : Json) : Prop :=
  ∀ rest, Ends rest →
    item (chars .unicode v ++ rest) = if depth v ≤ d then some (v, rest) else none

/-- The text of a value begins with neither blank space nor the end of an array. -/
def Begins (v : Json) : Prop :=
  ∃ c s, chars .unicode v = c :: s ∧ isSpace c = false ∧ c ≠ ']'

theorem Canonical.begins {v : Json} (canonical : Canonical v) : Begins v := by
  cases canonical with
  | null => exact ⟨_, _, rfl, by decide, by decide⟩
  | bool b => cases b <;> exact ⟨_, _, rfl, by decide, by decide⟩
  | @int n =>
    obtain ⟨c, s, hchars, leads⟩ := intChars_eq_cons n
    exact ⟨c, s, hchars, leads.isSpace_eq, leads.ne (by decide)⟩
  | str s => exact ⟨_, _, rfl, by decide, by decide⟩
  | arr => exact ⟨_, _, rfl, by decide, by decide⟩
  | obj => exact ⟨_, _, rfl, by decide, by decide⟩

section

variable {item : Reader} {d : Nat}

/-- There is a comma after every item but the last. -/
theorem length_le_itemChars (set : Charset) (items : List Json) :
    items.length ≤ (itemChars set items).length + 1 := by
  induction items with
  | nil => simp
  | cons v more ih =>
    cases more with
    | nil => simp
    | cons w more =>
      simp only [itemChars, List.length_append, List.length_cons] at ih ⊢
      omega

theorem itemChars_cons (set : Charset) (v w : Json) (more : List Json) :
    itemChars set (v :: w :: more) = chars set v ++ ',' :: itemChars set (w :: more) := by
  rw [itemChars]
  exact List.cons_ne_nil w more

theorem itemList?_itemChars {items : List Json} {bound : Nat} (rest : List Char)
    (nonempty : items ≠ []) (enough : items.length ≤ bound) (each : ∀ v ∈ items, Inverts item d v) :
    itemList? item bound (itemChars .unicode items ++ ']' :: rest) =
      if itemDepth items ≤ d then some (items, rest) else none := by
  induction items generalizing bound with
  | nil => exact absurd rfl nonempty
  | cons v more ih =>
    obtain ⟨bound, rfl⟩ : ∃ b, bound = b + 1 := ⟨bound - 1, by simp at enough; omega⟩
    obtain ⟨hv, each⟩ := List.forall_mem_cons.mp each
    have hdepth : itemDepth (v :: more) ≤ d ↔ depth v ≤ d ∧ itemDepth more ≤ d := Nat.max_le
    cases more with
    | nil =>
      rw [itemChars, itemList?, hv _ (ends_cons (by decide))]
      by_cases fits : depth v ≤ d
      · simp [fits, itemDepth, skipSpace_cons (c := ']') rfl]
      · simp [hdepth, fits]
    | cons w more =>
      have hmore := @ih bound (by simp) (by simpa using enough) each
      rw [itemChars_cons, List.append_assoc, List.cons_append, itemList?,
        hv _ (ends_cons (by decide))]
      by_cases fits : depth v ≤ d
      · simp only [hdepth, fits, true_and, if_true, Option.bind_eq_bind, Option.bind_some,
          skipSpace_cons (c := ',') rfl, hmore]
        split <;> rfl
      · simp [hdepth, fits]

/-- The items of an array and the bracket after them are read back. -/
theorem array?_itemChars {items : List Json} (rest : List Char) (begins : ∀ v ∈ items, Begins v)
    (each : ∀ v ∈ items, Inverts item d v) :
    array? item (itemChars .unicode items ++ ']' :: rest) =
      if itemDepth items ≤ d then some (.arr items, rest) else none := by
  cases items with
  | nil => simp [array?, itemChars, itemDepth, skipSpace_cons (c := ']') rfl]
  | cons v more =>
    have hlength : (v :: more).length ≤
        (itemChars .unicode (v :: more) ++ ']' :: rest).length := by
      have := length_le_itemChars .unicode (v :: more)
      simp only [List.length_append, List.length_cons] at this ⊢
      omega
    have hitems := itemList?_itemChars rest (List.cons_ne_nil v more) hlength each
    obtain ⟨c, s, hchars, space, bracket⟩ := begins v (List.mem_cons_self ..)
    obtain ⟨s', hs'⟩ : ∃ s', itemChars .unicode (v :: more) ++ ']' :: rest = c :: s' := by
      cases more with
      | nil => exact ⟨s ++ ']' :: rest, by rw [itemChars, hchars, List.cons_append]⟩
      | cons w more =>
        exact ⟨_, by rw [itemChars_cons, hchars, List.cons_append, List.cons_append]⟩
    rw [hs'] at hitems ⊢
    rw [array?, skipSpace_cons space]
    split
    · rename_i heq
      exact absurd (List.cons.inj heq).1 bracket
    · rw [hitems]
      split <;> rfl

/-- There is a comma after every field but the last. -/
theorem length_le_fieldChars (set : Charset) (fields : List (String × Json)) :
    fields.length ≤ (fieldChars set fields).length + 1 := by
  induction fields with
  | nil => simp
  | cons f more ih =>
    cases more with
    | nil => simp
    | cons g more =>
      simp only [fieldChars, List.length_append, List.length_cons] at ih ⊢
      omega

theorem fieldChars_cons (set : Charset) (f g : String × Json) (more : List (String × Json)) :
    fieldChars set (f :: g :: more) = stringChars set f.1 ++ ':' :: (chars set f.2 ++
      ',' :: fieldChars set (g :: more)) := by
  rw [fieldChars, List.append_assoc, List.cons_append]
  exact List.cons_ne_nil g more

theorem fieldChars_singleton (set : Charset) (f : String × Json) :
    fieldChars set [f] = stringChars set f.1 ++ ':' :: chars set f.2 := by
  rw [fieldChars]

/-- The name of a field and the colon after it are read back. -/
theorem name?_stringChars (name : String) (rest : List Char) :
    name? .meaning (stringChars .unicode name ++ ':' :: rest) = some (name, rest) := by
  have hspace : skipSpace (stringChars .unicode name ++ ':' :: rest) =
      stringChars .unicode name ++ ':' :: rest := skipSpace_cons rfl
  rw [name?, hspace, string?_stringChars]
  simp only [Option.bind_eq_bind, Option.bind_some, skipSpace_cons (c := ':') rfl]

theorem fieldList?_fieldChars {fields : List (String × Json)} {bound : Nat} (rest : List Char)
    (nonempty : fields ≠ []) (enough : fields.length ≤ bound)
    (each : ∀ f ∈ fields, Inverts item d f.2) :
    fieldList? .meaning item bound (fieldChars .unicode fields ++ '\x7d' :: rest) =
      if fieldDepth fields ≤ d then some (fields, rest) else none := by
  induction fields generalizing bound with
  | nil => exact absurd rfl nonempty
  | cons f more ih =>
    obtain ⟨bound, rfl⟩ : ∃ b, bound = b + 1 := ⟨bound - 1, by simp at enough; omega⟩
    obtain ⟨hf, each⟩ := List.forall_mem_cons.mp each
    have hdepth : fieldDepth (f :: more) ≤ d ↔ depth f.2 ≤ d ∧ fieldDepth more ≤ d := Nat.max_le
    cases more with
    | nil =>
      have hvalue := hf ('\x7d' :: rest) (ends_cons (by decide))
      rw [fieldChars_singleton, List.append_assoc, List.cons_append, fieldList?, name?_stringChars]
      simp only [Option.bind_eq_bind, Option.bind_some, hvalue]
      by_cases fits : depth f.2 ≤ d
      · simp [fits, fieldDepth, skipSpace_cons (c := '\x7d') rfl]
      · simp [hdepth, fits]
    | cons g more =>
      have hmore := @ih bound (by simp) (by simpa using enough) each
      have hvalue := hf (',' :: (fieldChars .unicode (g :: more) ++ '\x7d' :: rest))
        (ends_cons (by decide))
      rw [fieldChars_cons, List.append_assoc, List.cons_append, List.append_assoc,
        List.cons_append, fieldList?, name?_stringChars]
      simp only [Option.bind_eq_bind, Option.bind_some, hvalue]
      by_cases fits : depth f.2 ≤ d
      · simp only [hdepth, fits, true_and, if_true, Option.bind_some,
          skipSpace_cons (c := ',') rfl, hmore]
        split <;> rfl
      · simp [hdepth, fits]

/-- The text of fields begins with the quote of the first name. -/
theorem exists_fieldChars {fields : List (String × Json)} (nonempty : fields ≠ [])
    (rest : List Char) : ∃ s, fieldChars .unicode fields ++ rest = '"' :: s := by
  cases fields with
  | nil => exact absurd rfl nonempty
  | cons f more =>
    cases more with
    | nil => exact ⟨_, by rw [fieldChars_singleton]; rfl⟩
    | cons g more => exact ⟨_, by rw [fieldChars_cons]; rfl⟩

/-- The fields of an object and the brace after them are read back. -/
theorem object?_fieldChars {fields : List (String × Json)} (rest : List Char)
    (sorted : fields.Pairwise fun f g => f.1 < g.1) (each : ∀ f ∈ fields, Inverts item d f.2) :
    object? .meaning item (fieldChars .unicode fields ++ '\x7d' :: rest) =
      if fieldDepth fields ≤ d then some (.obj fields, rest) else none := by
  cases fields with
  | nil => simp [object?, fieldChars, fieldDepth, skipSpace_cons (c := '\x7d') rfl]
  | cons f more =>
    have hlength : (f :: more).length ≤
        (fieldChars .unicode (f :: more) ++ '\x7d' :: rest).length := by
      have := length_le_fieldChars .unicode (f :: more)
      simp only [List.length_append, List.length_cons] at this ⊢
      omega
    have hfields := fieldList?_fieldChars rest (List.cons_ne_nil f more) hlength each
    obtain ⟨s, hs⟩ := exists_fieldChars (List.cons_ne_nil f more) ('\x7d' :: rest)
    rw [hs] at hfields ⊢
    rw [object?, skipSpace_cons (by decide)]
    split
    · rename_i heq
      exact absurd (List.cons.inj heq).1 (by decide)
    · rw [hfields]
      by_cases fits : fieldDepth (f :: more) ≤ d
      · simp [fits, ofFields_of_sorted sorted]
      · simp [fits]

end

/-- The text of a value is read back as the value, and refused if it nests too deep. -/
theorem value?_chars {v : Json} (canonical : Canonical v) (d : Nat) :
    Inverts (value? .meaning d) d v := by
  induction canonical generalizing d with
  | null =>
    intro rest _
    simp [chars, value?, depth, skipSpace_cons (c := 'n') rfl]
  | bool b =>
    intro rest _
    cases b
    · simp [chars, value?, depth, skipSpace_cons (c := 'f') rfl]
    · simp [chars, value?, depth, skipSpace_cons (c := 't') rfl]
  | @int n low high =>
    intro rest ends
    have hnumber := number?_intChars low high ends
    obtain ⟨c, s, hchars, leads⟩ := intChars_eq_cons n
    rw [chars]
    rw [hchars, List.cons_append] at hnumber ⊢
    rw [value?_of_leads d _ leads, hnumber]
    simp [depth]
  | str s =>
    intro rest _
    rw [chars, value?_str]
    simp [depth]
  | @arr items each ih =>
    intro rest _
    rw [chars, depth, List.append_assoc, List.cons_append, value?.eq_1, skipSpace_cons (by decide)]
    cases d with
    | zero => simp
    | succ d =>
      have harray := array?_itemChars rest (fun v hv => (each v hv).begins) fun v hv => ih v hv d
      simpa using harray
  | @obj fields sorted each ih =>
    intro rest _
    rw [chars, depth, List.append_assoc, List.cons_append, value?.eq_1, skipSpace_cons (by decide)]
    cases d with
    | zero => simp
    | succ d =>
      have hobject := object?_fieldChars rest sorted fun f hf => ih f hf d
      simpa using hobject

end Turnstile.Json
