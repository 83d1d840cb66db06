import Mathlib.Data.List.DropRight
import Turnstile.Address
import Turnstile.Proofs.Text.Numeral
import Turnstile.Text.Blank

/-!
# Addresses can be read back

`ofText?` reads the text of an address. A text with a colon is of the sixth version, and one that
has points as well carries an address of the fourth version. Elsewhere an empty piece between colons
stands for the zero groups that were left out: the rest is eight groups long with them, so it does
not matter which run of zeros was chosen. Every address is read back from its text
(`ofText?_text`), and so no two addresses have the same one.
-/

namespace Turnstile

namespace Address

/-! ## Reading -/

/-- The numbers between the points of a text. -/
def readDotted (text : List Char) : List Nat := (text.splitOn '.').map Text.digitsValue

/-- The group that a numeral stands for. -/
def readGroup (numeral : List Char) : UInt16 := .ofNat (Text.hexDigitsValue numeral)

/-- The eight groups between the colons of a text. -/
def readGroups (text : List Char) : List UInt16 :=
  let pieces := text.splitOn ':'
  if pieces.any List.isEmpty then
    let left := (pieces.takeWhile (· ≠ [])).map readGroup
    let right := (pieces.rtakeWhile (· ≠ [])).map readGroup
    left ++ List.replicate (8 - left.length - right.length) 0 ++ right
  else pieces.map readGroup

/-- The address whose text this is. -/
def ofText? (text : List Char) : Option Address :=
  if ':' ∈ text then
    if '.' ∈ text then
      match readDotted (text.drop "::ffff:".toList.length) with
      | [a, b, c, d] => some (.v6 0 0 0 0 0 0xFFFF (.ofNat (a * 256 + b)) (.ofNat (c * 256 + d)))
      | _ => none
    else
      match readGroups text with
      | [a, b, c, d, e, f, g, h] => some (.v6 a b c d e f g h)
      | _ => none
  else
    match readDotted text with
    | [a, b, c, d] => some (.v4 (.ofNat a) (.ofNat b) (.ofNat c) (.ofNat d))
    | _ => none

/-! ## Numbers with points between them -/

theorem toList_dotted (a b c d : Nat) : (dotted a b c d).toList =
    Nat.toDigits 10 a ++ '.' :: (Nat.toDigits 10 b ++
      '.' :: (Nat.toDigits 10 c ++ '.' :: Nat.toDigits 10 d)) := by
  simp [dotted]

theorem point_not_mem_decimal (n : Nat) : '.' ∉ Nat.toDigits 10 n := by
  intro hmem
  exact Text.forall_mem_toDigits (P := ('.' ≠ ·)) (by decide) (by decide) n '.' hmem rfl

theorem readDotted_dotted (a b c d : Nat) :
    readDotted (dotted a b c d).toList = [a, b, c, d] := by
  simp [readDotted, toList_dotted, List.splitOn_append_cons_self_of_not_mem,
    List.splitOn_eq_singleton, point_not_mem_decimal, Text.digitsValue_toDigits]

theorem point_mem_dotted (a b c d : Nat) : '.' ∈ (dotted a b c d).toList := by
  simp [toList_dotted]

/-! ## Groups with colons between them -/

theorem colon_not_mem_hexNumeral (n : Nat) : ':' ∉ Text.hexNumeral n := by
  intro hmem
  exact Text.forall_mem_toDigits (P := (':' ≠ ·)) (by decide) (by decide) n ':' hmem rfl

theorem readGroup_hexNumeral (g : UInt16) : readGroup (Text.hexNumeral g.toNat) = g := by
  rw [readGroup, Text.hexDigitsValue_hexNumeral, UInt16.ofNat_toNat]

theorem toList_groupText (groups : List UInt16) : (groupText groups).toList =
    [':'].intercalate (groups.map fun g => Text.hexNumeral g.toNat) := by
  simp [groupText, String.toList_intercalate, Function.comp_def]

/-- Between the colons stand the numerals of the groups, or nothing if there are none. -/
theorem splitOn_groupText (groups : List UInt16) : (groupText groups).toList.splitOn ':' =
    if groups = [] then [[]] else groups.map fun g => Text.hexNumeral g.toNat := by
  rw [toList_groupText]
  split
  · subst_vars
    rfl
  · rename_i hne
    apply List.splitOn_intercalate
    · intro numeral hmem
      obtain ⟨g, -, rfl⟩ := List.mem_map.mp hmem
      exact colon_not_mem_hexNumeral g.toNat
    · simpa using hne

theorem map_readGroup (groups : List UInt16) :
    (groups.map fun g => Text.hexNumeral g.toNat).map readGroup = groups := by
  simp [Function.comp_def, readGroup_hexNumeral]

/-- No numeral is an empty piece. -/
theorem numeral_ne_nil {groups : List UInt16} {piece : List Char}
    (hmem : piece ∈ groups.map fun g => Text.hexNumeral g.toNat) : piece ≠ [] := by
  obtain ⟨g, -, rfl⟩ := List.mem_map.mp hmem
  exact Nat.toDigits_ne_nil

theorem readGroups_groupText {groups : List UInt16} (hne : groups ≠ []) :
    readGroups (groupText groups).toList = groups := by
  have hfull : ¬ (groups.map fun g => Text.hexNumeral g.toNat).any List.isEmpty = true := by
    rw [List.any_eq_true]
    rintro ⟨piece, hmem, hempty⟩
    exact numeral_ne_nil hmem (List.isEmpty_iff.mp hempty)
  simp only [readGroups, splitOn_groupText, if_neg hne, if_neg hfull, map_readGroup]

/-! ## A run of zeros left out -/

/-- The pieces that a text with a double colon falls into: those of the groups on either side, and
an empty one between them. -/
theorem splitOn_gap (left right : List UInt16) :
    (groupText left ++ "::" ++ groupText right).toList.splitOn ':' =
      (groupText left).toList.splitOn ':' ++ [] :: (groupText right).toList.splitOn ':' := by
  have htext : (groupText left ++ "::" ++ groupText right).toList =
      (groupText left).toList ++ ':' :: ([] ++ ':' :: (groupText right).toList) := by
    simp
  rw [htext, List.splitOn_append_cons_self, List.splitOn_append_cons_self]
  rfl

/-- In front of the first empty piece are the groups on the left. -/
theorem takeWhile_pieces (groups : List UInt16) (rest : List (List Char)) :
    ((groupText groups).toList.splitOn ':' ++ [] :: rest).takeWhile (· ≠ []) =
      groups.map fun g => Text.hexNumeral g.toNat := by
  rw [splitOn_groupText]
  split
  · subst_vars
    rfl
  · rw [List.takeWhile_append_of_pos]
    · simp
    · intro piece hmem
      simpa using numeral_ne_nil hmem

/-- Behind the last empty piece are the groups on the right. -/
theorem rtakeWhile_pieces (rest : List (List Char)) (groups : List UInt16) :
    (rest ++ [] :: (groupText groups).toList.splitOn ':').rtakeWhile (· ≠ []) =
      groups.map fun g => Text.hexNumeral g.toNat := by
  rw [splitOn_groupText]
  split
  · subst_vars
    simp [List.rtakeWhile]
  · have hall : ∀ piece ∈ (groups.map fun g => Text.hexNumeral g.toNat).reverse,
        decide (piece ≠ []) = true := by
      intro piece hmem
      simpa using numeral_ne_nil (List.mem_reverse.mp hmem)
    simp only [List.rtakeWhile, List.reverse_append, List.reverse_cons, List.append_assoc,
      List.singleton_append]
    rw [List.takeWhile_append_of_pos hall]
    simp

/-- The groups that were left out are put in again. -/
theorem readGroups_gap {left right : List UInt16} {missing : Nat}
    (hlength : left.length + missing + right.length = 8) :
    readGroups (groupText left ++ "::" ++ groupText right).toList =
      left ++ List.replicate missing 0 ++ right := by
  have hgap : ((groupText left ++ "::" ++ groupText right).toList.splitOn ':').any List.isEmpty =
      true := by
    rw [splitOn_gap]
    simp
  have hmissing : 8 - left.length - right.length = missing := by omega
  simp only [readGroups, if_pos hgap]
  rw [splitOn_gap, takeWhile_pieces, rtakeWhile_pieces, map_readGroup, map_readGroup, hmissing]

theorem take_zeroRun (groups : List UInt16) :
    groups = List.replicate (zeroRun groups) 0 ++ groups.drop (zeroRun groups) := by
  induction groups with
  | nil => rfl
  | cons g rest ih =>
    by_cases hg : g = 0
    · subst hg
      have hrun : zeroRun (0 :: rest) = zeroRun rest + 1 := by simp [zeroRun]
      rw [hrun, List.replicate_succ, List.cons_append, List.drop_succ_cons, ← ih]
    · have hrun : zeroRun (g :: rest) = 0 := by simp [zeroRun, hg]
      simp [hrun]

/-- The run that is found consists of zeros. -/
theorem longestZeroRun_spec (groups : List UInt16) :
    groups = groups.take (longestZeroRun groups).1 ++
      List.replicate (longestZeroRun groups).2 0 ++
        groups.drop ((longestZeroRun groups).1 + (longestZeroRun groups).2) := by
  induction groups with
  | nil => rfl
  | cons g rest ih =>
    simp only [longestZeroRun]
    split
    · -- the run in front is at least as long as any later one
      simpa using take_zeroRun (g :: rest)
    · have hshift : (longestZeroRun rest).1 + 1 + (longestZeroRun rest).2 =
          (longestZeroRun rest).1 + (longestZeroRun rest).2 + 1 := by omega
      rw [hshift, List.take_succ_cons, List.drop_succ_cons, List.cons_append, List.cons_append,
        ← ih]

/-- Eight groups are read back from their text, whichever of their zeros were left out. -/
theorem readGroups_compressed {groups : List UInt16} (hlength : groups.length = 8) :
    readGroups (compressed groups).toList = groups := by
  have hspec := longestZeroRun_spec groups
  have hne : groups ≠ [] := by
    rintro rfl
    cases hlength
  unfold compressed
  generalize longestZeroRun groups = run at hspec ⊢
  obtain ⟨start, missing⟩ := run
  simp only at hspec ⊢
  split
  · have hsum : (groups.take start).length + missing + (groups.drop (start + missing)).length =
        8 := by
      have hlengths := congrArg List.length hspec
      simp only [List.length_append, List.length_replicate] at hlengths
      omega
    rw [readGroups_gap hsum]
    exact hspec.symm
  · exact readGroups_groupText hne

/-! ## Characters -/

/-- What holds of digits and of the point holds of every character of a dotted address. -/
theorem forall_mem_dotted {P : Char → Prop} (point : P '.')
    (digit : ∀ d < 10, P (Nat.digitChar d)) (a b c d : Nat) :
    ∀ x ∈ (dotted a b c d).toList, P x := by
  intro x hx
  have hnumeral : ∀ n, x ∈ Nat.toDigits 10 n → P x := fun n =>
    Text.forall_mem_toDigits (by decide) digit n x
  simp only [toList_dotted, List.mem_append, List.mem_cons] at hx
  rcases hx with hx | rfl | hx | rfl | hx | rfl | hx
  · exact hnumeral a hx
  · exact point
  · exact hnumeral b hx
  · exact point
  · exact hnumeral c hx
  · exact point
  · exact hnumeral d hx

theorem colon_not_mem_dotted (a b c d : Nat) : ':' ∉ (dotted a b c d).toList := by
  intro hmem
  exact forall_mem_dotted (P := (':' ≠ ·)) (by decide) (by decide) a b c d ':' hmem rfl

theorem forall_mem_groupText {P : Char → Prop} (colon : P ':')
    (digit : ∀ d < 16, P (Nat.digitChar d)) (groups : List UInt16) :
    ∀ x ∈ (groupText groups).toList, P x := by
  have hnumeral : ∀ g : UInt16, ∀ x ∈ Text.hexNumeral g.toNat, P x := fun g =>
    Text.forall_mem_toDigits (by decide) digit g.toNat
  rw [toList_groupText]
  induction groups with
  | nil => simp
  | cons g rest ih =>
    cases rest with
    | nil => simpa using hnumeral g
    | cons g' rest =>
      intro x hx
      simp only [List.map_cons, List.intercalate_cons_cons, List.mem_append,
        List.mem_singleton] at hx ih
      rcases hx with (hx | rfl) | hx
      · exact hnumeral g x hx
      · exact colon
      · exact ih x hx

theorem forall_mem_compressed {P : Char → Prop} (colon : P ':')
    (digit : ∀ d < 16, P (Nat.digitChar d)) (groups : List UInt16) :
    ∀ x ∈ (compressed groups).toList, P x := by
  intro x hx
  unfold compressed at hx
  simp only at hx
  split at hx
  · simp only [String.toList_append, List.mem_append] at hx
    rcases hx with (hx | hx) | hx
    · exact forall_mem_groupText colon digit _ x hx
    · obtain rfl : x = ':' := by simpa using hx
      exact colon
    · exact forall_mem_groupText colon digit _ x hx
  · exact forall_mem_groupText colon digit _ x hx

/-- The text of an address of the sixth version: that of one of the fourth version behind a marker,
or that of its groups. -/
theorem text_v6 (a b c d e f g h : UInt16) :
    ((a = 0 ∧ b = 0 ∧ c = 0 ∧ d = 0 ∧ e = 0 ∧ f = 0xFFFF) ∧ (text (.v6 a b c d e f g h)) =
      "::ffff:" ++ dotted (g.toNat / 256) (g.toNat % 256) (h.toNat / 256) (h.toNat % 256)) ∨
    text (.v6 a b c d e f g h) = compressed [a, b, c, d, e, f, g, h] := by
  simp only [text]
  split
  · rename_i hmapped
    simp only [List.cons.injEq, and_true] at hmapped
    obtain ⟨⟨ha, hb, hc, hd, he⟩, hf⟩ := hmapped
    exact .inl ⟨⟨ha, hb, hc, hd, he, hf⟩, rfl⟩
  · exact .inr rfl

/-- What holds of digits, of the point and of the colon holds of every character of an address. -/
theorem forall_mem_text {P : Char → Prop} (colon : P ':') (point : P '.')
    (digit : ∀ d < 16, P (Nat.digitChar d)) (a : Address) : ∀ x ∈ a.text.toList, P x := by
  have decimal : ∀ d < 10, P (Nat.digitChar d) := fun d hd => digit d (by omega)
  cases a with
  | v4 a b c d => exact forall_mem_dotted point decimal _ _ _ _
  | v6 a b c d e f g h =>
    rcases text_v6 a b c d e f g h with ⟨-, htext⟩ | htext
    · intro x hx
      rw [htext, String.toList_append, List.mem_append] at hx
      rcases hx with hx | hx
      · have hmarker : x = ':' ∨ x = 'f' ∨ x = ':' := by simpa using hx
        rcases hmarker with rfl | rfl | rfl
        · exact colon
        · exact digit 15 (by decide)
        · exact colon
      · exact forall_mem_dotted point decimal _ _ _ _ x hx
    · rw [htext]
      exact forall_mem_compressed colon digit _

theorem colon_mem_compressed {groups : List UInt16} (hlength : groups.length = 8) :
    ':' ∈ (compressed groups).toList := by
  unfold compressed
  simp only
  split
  · simp
  · -- without a colon there would be one numeral only
    apply Decidable.byContradiction
    intro hnone
    have hne : groups ≠ [] := by
      rintro rfl
      cases hlength
    have hsplit := splitOn_groupText groups
    rw [List.splitOn_eq_singleton hnone, if_neg hne] at hsplit
    have hone := congrArg List.length hsplit
    rw [List.length_map, hlength] at hone
    cases hone

theorem point_not_mem_compressed (groups : List UInt16) : '.' ∉ (compressed groups).toList := by
  intro hmem
  exact forall_mem_compressed (P := ('.' ≠ ·)) (by decide) (by decide) groups '.' hmem rfl

/-! ## Addresses -/

theorem ofText?_dotted (a b c d : Nat) : ofText? (dotted a b c d).toList =
    some (.v4 (.ofNat a) (.ofNat b) (.ofNat c) (.ofNat d)) := by
  simp only [ofText?, if_neg (colon_not_mem_dotted a b c d), readDotted_dotted]

/-- Behind the marker the last two groups are taken apart into bytes. -/
theorem ofText?_mapped (a b c d : Nat) : ofText? ("::ffff:" ++ dotted a b c d).toList =
    some (.v6 0 0 0 0 0 0xFFFF (.ofNat (a * 256 + b)) (.ofNat (c * 256 + d))) := by
  simp [ofText?, point_mem_dotted, readDotted_dotted]

theorem ofText?_compressed (a b c d e f g h : UInt16) :
    ofText? (compressed [a, b, c, d, e, f, g, h]).toList = some (.v6 a b c d e f g h) := by
  have hcolon : ':' ∈ (compressed [a, b, c, d, e, f, g, h]).toList := colon_mem_compressed rfl
  have hpoint := point_not_mem_compressed [a, b, c, d, e, f, g, h]
  have hgroups : readGroups (compressed [a, b, c, d, e, f, g, h]).toList =
      [a, b, c, d, e, f, g, h] := readGroups_compressed rfl
  simp only [ofText?, if_pos hcolon, if_neg hpoint, hgroups]

/-- An address is read back from its text. -/
theorem ofText?_text (a : Address) : ofText? a.text.toList = some a := by
  cases a with
  | v4 a b c d =>
    rw [text, ofText?_dotted]
    simp only [UInt8.ofNat_toNat]
  | v6 a b c d e f g h =>
    rcases text_v6 a b c d e f g h with ⟨⟨rfl, rfl, rfl, rfl, rfl, rfl⟩, htext⟩ | htext
    · -- two bytes make up a group again
      have hbytes : ∀ n : UInt16, n.toNat / 256 * 256 + n.toNat % 256 = n.toNat := by
        intro n
        omega
      rw [htext, ofText?_mapped, hbytes, hbytes, UInt16.ofNat_toNat, UInt16.ofNat_toNat]
    · rw [htext, ofText?_compressed]

/-- No two addresses have the same text. -/
theorem text_injective : Function.Injective text := by
  intro a a' heq
  have hread := ofText?_text a
  rw [heq, ofText?_text] at hread
  exact (Option.some.inj hread).symm

/-- There is no blank space around the text of an address. -/
theorem trim_text (a : Address) : Text.trim a.text = a.text := by
  have hblank : ∀ c ∈ a.text.toList, Text.isBlank c = false :=
    forall_mem_text (by decide) (by decide) (by decide) a
  have hkeep : ∀ cs : List Char, (∀ c ∈ cs, Text.isBlank c = false) →
      cs.dropWhile Text.isBlank = cs := by
    intro cs hcs
    cases cs with
    | nil => rfl
    | cons c rest => rw [List.dropWhile_cons_of_neg (by simp [hcs c])]
  rw [Text.trim, Text.trimChars, hkeep _ hblank, hkeep _ (by simpa using hblank),
    List.reverse_reverse, String.ofList_toList]

end Address

end Turnstile
