import Turnstile.Http.Envelope
import Turnstile.Proofs.Json.RoundTrip

/-!
# Envelopes written and read back

What one side writes as an envelope the other side reads as the same envelope, whatever its message
and its content are (`Envelope.read_back`). There are two exceptions, both in how contents are read:
one of null counts as none, and one that nests too deep is refused with all that is around it.
-/

namespace Turnstile

open Json (Canonical Ends chars fieldChars ends_cons skipSpace_cons)

namespace Envelope

/-! ## One field -/

/-- Reading the value of the field from its text changes the draft so, or is refused. -/
def Turns (f : String × Json) (d : Draft) (d' : Option Draft) : Prop :=
  ∀ rest, Ends rest → field? f.1 d (chars .unicode f.2 ++ rest) = d'.map fun d' => (d', rest)

theorem turns_code {d : Draft} {n : Int} (missing : d.code = none) (low : -2147483648 ≤ n)
    (high : n ≤ 2147483647) :
    Turns ("code", .int n) d (some { d with code := some n }) := by
  intro rest ends
  have hlow : Text.minI64 ≤ n := Int.le_trans (by decide) low
  have hhigh : n ≤ Text.maxU64 := Int.le_trans high (by decide)
  have hnumber := Json.number?_intChars hlow hhigh ends
  obtain ⟨c, s, hchars, leads⟩ := Json.intChars_eq_cons n
  have hspace : Json.skipSpace (Json.intChars n ++ rest) = Json.intChars n ++ rest := by
    rw [hchars, List.cons_append, skipSpace_cons leads.isSpace_eq]
  simp [field?, missing, chars, code?, hspace, hnumber, low, high]

theorem turns_message {d : Draft} {m : String} (missing : d.message = none) :
    Turns ("error_message", .str m) d (some { d with message := some (some m) }) := by
  intro rest _
  have hstring := Json.string?_stringChars m rest
  have hmessage : message? (Json.stringChars .unicode m ++ rest) = some (some m, rest) := by
    have hspace : Json.skipSpace (Json.stringChars .unicode m ++ rest) =
      Json.stringChars .unicode m ++ rest := skipSpace_cons rfl
    rw [message?, hspace]
    split
    · rename_i heq
      exact absurd (List.cons.inj heq).1 (by decide)
    · rw [hstring, Option.map_some]
  simp [field?, missing, chars, hmessage]

/-- A content as it is read: one of null is none. -/
def heard : Json → Option Json
  | .null => none
  | v => some v

theorem content?_eq (s : List Char) : content? s =
    (Json.value? .meaning contentDepth s).map fun found => (heard found.1, found.2) := by
  unfold content? heard
  split <;> simp_all

theorem turns_content {d : Draft} {v : Json} (missing : d.content = none)
    (canonical : Canonical v) :
    Turns ("content", v) d
      (if v.depth ≤ contentDepth then some { d with content := some (heard v) } else none) := by
  intro rest ends
  have hvalue := Json.value?_chars canonical contentDepth rest ends
  by_cases fits : v.depth ≤ contentDepth
  · simp [field?, missing, content?_eq, hvalue, fits]
  · simp [field?, missing, content?_eq, hvalue, fits]

/-! ## All fields -/

section

variable {f : String × Json} {d : Draft} {d' : Option Draft}

theorem fieldList?_last (turns : Turns f d d') (bound : Nat) (rest : List Char) :
    fieldList? (bound + 1) d (fieldChars .unicode [f] ++ '\x7d' :: rest) =
      d'.map fun d' => (d', rest) := by
  have hfield := turns ('\x7d' :: rest) (ends_cons (by decide))
  rw [Json.fieldChars_singleton, List.append_assoc, List.cons_append, fieldList?,
    Json.name?_stringChars]
  simp only [Option.bind_eq_bind, Option.bind_some, hfield]
  cases d' with
  | none => rfl
  | some d' => simp [skipSpace_cons (c := '\x7d') rfl]

theorem fieldList?_more (turns : Turns f d d') (g : String × Json) (more : List (String × Json))
    (bound : Nat) (rest : List Char) :
    fieldList? (bound + 1) d (fieldChars .unicode (f :: g :: more) ++ '\x7d' :: rest) =
      d'.bind fun d' =>
        fieldList? bound d' (fieldChars .unicode (g :: more) ++ '\x7d' :: rest) := by
  have hfield := turns (',' :: (fieldChars .unicode (g :: more) ++ '\x7d' :: rest))
    (ends_cons (by decide))
  rw [Json.fieldChars_cons, List.append_assoc, List.cons_append, List.append_assoc,
    List.cons_append, fieldList?, Json.name?_stringChars]
  simp only [Option.bind_eq_bind, Option.bind_some, hfield]
  cases d' with
  | none => rfl
  | some d' => simp [skipSpace_cons (c := ',') rfl]

end

/-- How deep the content nests, if there is one. -/
def nesting (e : Envelope) : Nat := (e.content.map Json.depth).getD 0

/-- The fields of an envelope are read one after another, and the content last. -/
theorem fieldList?_fields {e : Envelope} {bound : Nat} (rest : List Char)
    (low : -2147483648 ≤ e.code) (high : e.code ≤ 2147483647)
    (canonical : ∀ v ∈ e.content, Canonical v) :
    fieldList? (bound + 3) .empty (fieldChars .unicode e.fields ++ '\x7d' :: rest) =
      if e.nesting ≤ contentDepth then
        some (⟨some e.code, e.message.map some, e.content.map heard⟩, rest)
      else none := by
  obtain ⟨code, message, content⟩ := e
  have hcode : Turns ("code", .int code) .empty (some ⟨some code, none, none⟩) :=
    turns_code rfl low high
  cases message with
  | none =>
    cases content with
    | none => exact (fieldList?_last hcode (bound + 2) rest).trans (by simp [nesting])
    | some v =>
      have hcontent := turns_content (d := ⟨some code, none, none⟩) rfl (canonical v rfl)
      refine (fieldList?_more hcode ("content", v) [] (bound + 2) rest).trans ?_
      refine (fieldList?_last hcontent (bound + 1) rest).trans ?_
      by_cases fits : v.depth ≤ contentDepth <;> simp [nesting, fits]
  | some m =>
    have hmessage := turns_message (d := ⟨some code, none, none⟩) (m := m) rfl
    cases content with
    | none =>
      refine (fieldList?_more hcode ("error_message", .str m) [] (bound + 2) rest).trans ?_
      refine (fieldList?_last hmessage (bound + 1) rest).trans ?_
      simp [nesting]
    | some v =>
      have hcontent := turns_content (d := ⟨some code, some (some m), none⟩) rfl (canonical v rfl)
      refine (fieldList?_more hcode ("error_message", .str m) [("content", v)] (bound + 2)
        rest).trans ?_
      refine (fieldList?_more hmessage ("content", v) [] (bound + 1) rest).trans ?_
      refine (fieldList?_last hcontent bound rest).trans ?_
      by_cases fits : v.depth ≤ contentDepth <;> simp [nesting, fits]

/-- An envelope as it is read. -/
def received (e : Envelope) : Envelope := { e with content := e.content.bind heard }

/-- The text of an envelope begins with the name of its code. -/
theorem exists_fieldChars (e : Envelope) :
    ∃ s, fieldChars .unicode e.fields = ['"', 'c', 'o', 'd', 'e', '"'] ++ s := by
  have hname : Json.stringChars .unicode "code" = ['"', 'c', 'o', 'd', 'e', '"'] := by decide
  obtain ⟨more, hfields⟩ : ∃ more, e.fields = ("code", .int e.code) :: more := ⟨_, rfl⟩
  rw [hfields]
  cases more with
  | nil => exact ⟨_, by rw [Json.fieldChars_singleton, hname]⟩
  | cons g more => exact ⟨_, by rw [Json.fieldChars_cons, hname]⟩

theorem ofText?_text {e : Envelope} (low : -2147483648 ≤ e.code) (high : e.code ≤ 2147483647)
    (canonical : ∀ v ∈ e.content, Canonical v) :
    ofText? e.text = if e.nesting ≤ contentDepth then some e.received else none := by
  have htext : e.text.toList = '\x7b' :: (fieldChars .unicode e.fields ++ ['\x7d']) := by
    simp [text, Json.text, chars]
  obtain ⟨s, hs⟩ := e.exists_fieldChars
  have hbound : ∃ bound, (fieldChars .unicode e.fields ++ ['\x7d']).length = bound + 3 :=
    ⟨s.length + 4, by simp [hs]⟩
  obtain ⟨bound, hbound⟩ := hbound
  have hread := @fieldList?_fields e bound [] low high canonical
  have hscan : scan? e.text.toList =
      if e.nesting ≤ contentDepth then some (e.received, []) else none := by
    have hspace : Json.skipSpace (fieldChars .unicode e.fields ++ ['\x7d']) =
        '"' :: (['c', 'o', 'd', 'e', '"'] ++ s ++ ['\x7d']) := by
      rw [hs]
      exact skipSpace_cons rfl
    rw [htext, scan?, skipSpace_cons (by decide)]
    simp only [hbound, hread, hspace]
    by_cases fits : e.nesting ≤ contentDepth
    · have hmessage : (e.message.map some).getD none = e.message := by cases e.message <;> rfl
      have hcontent : (e.content.map heard).getD none = e.content.bind heard := by
        cases e.content <;> rfl
      simp [fits, Draft.finish?, received, hmessage, hcontent]
    · simp [fits]
  rw [ofText?, hscan]
  by_cases fits : e.nesting ≤ contentDepth
  · rw [if_pos fits, if_pos fits]
    rfl
  · rw [if_neg fits, if_neg fits]
    rfl

/-- What is written as an envelope is read as the envelope, except that a content of null is read as
none. It is refused exactly if its content nests deeper than the reader of an envelope goes. -/
theorem read_back {e : Envelope} (low : -2147483648 ≤ e.code) (high : e.code ≤ 2147483647)
    (canonical : ∀ v ∈ e.content, Canonical v) :
    (e.nesting ≤ 126 →
      (e.content ≠ some .null → ofText? e.text = some e) ∧
        (e.content = some .null → ofText? e.text = some { e with content := none })) ∧
      (126 < e.nesting → ofText? e.text = none) := by
  have hread := ofText?_text low high canonical
  rw [show contentDepth = 126 from rfl] at hread
  refine ⟨fun fits => ⟨fun sound => ?_, fun isNull => ?_⟩, fun deep => ?_⟩
  · have kept : e.content.bind heard = e.content := by
      cases hcontent : e.content with
      | none => rfl
      | some v => cases v <;> first | rfl | exact absurd hcontent sound
    rw [hread, if_pos fits, received, kept]
  · rw [hread, if_pos fits, received, isNull]
    rfl
  · rw [hread, if_neg (Nat.not_le_of_lt deep)]

/-- An envelope with a code, a message and names that need escapes, and with the largest and the
smallest numbers. -/
def oddEnvelope : Envelope where
  code := -2147483648
  message := some "\u0000\x1f\"\\/\t\u2028é😀"
  content := some (.obj [("", .arr [.int Text.minI64, .int Text.maxU64, .int 0, .arr []]),
    ("\n", .null), ("\"", .obj [("é", .str ""), ("😀", .bool true)])])

theorem read_back_oddEnvelope :
    (∀ v ∈ oddEnvelope.content, Canonical v) ∧ ofText? oddEnvelope.text = some oddEnvelope := by
  have canonical : ∀ v ∈ oddEnvelope.content, Canonical v := by
    rintro _ ⟨⟩
    refine .obj (by decide) ?_
    simp only [List.forall_mem_cons, List.not_mem_nil, false_imp_iff, implies_true, and_true]
    refine ⟨.arr ?_, .null, .obj (by decide) ?_⟩
    · simp only [List.forall_mem_cons, List.not_mem_nil, false_imp_iff, implies_true, and_true]
      exact ⟨.int (by decide) (by decide), .int (by decide) (by decide),
        .int (by decide) (by decide), .arr nofun⟩
    · simp only [List.forall_mem_cons, List.not_mem_nil, false_imp_iff, implies_true, and_true]
      exact ⟨.str _, .bool _⟩
  have low : -2147483648 ≤ oddEnvelope.code := by decide
  have high : oddEnvelope.code ≤ 2147483647 := by decide
  exact ⟨canonical, ((read_back low high canonical).1 (by decide)).1 (by simp [oddEnvelope])⟩

/-- An array in an array, so many times. -/
def nested : Nat → Json
  | 0 => .arr []
  | n + 1 => .arr [nested n]

theorem canonical_nested (n : Nat) : Canonical (nested n) := by
  induction n with
  | zero => exact .arr nofun
  | succ n ih => exact .arr (by simpa using ih)

theorem depth_nested (n : Nat) : (nested n).depth = n + 1 := by
  induction n with
  | zero => rfl
  | succ n ih => simp [nested, Json.depth, Json.itemDepth, ih]

/-- A success whose content is a hundred and twenty-seven arrays, one in the other, is not read. -/
theorem deep_not_read_back :
    Canonical (nested 126) ∧ (success (nested 126)).code = 0 ∧
      ofText? (success (nested 126)).text = none := by
  have canonical : ∀ v ∈ (success (nested 126)).content, Canonical v := by
    rintro _ ⟨⟩
    exact canonical_nested 126
  have deep : ¬(success (nested 126)).nesting ≤ contentDepth := by
    have hdepth : (success (nested 126)).nesting = 127 := depth_nested 126
    rw [hdepth]
    decide
  refine ⟨canonical_nested 126, rfl, ?_⟩
  rw [ofText?_text (by decide) (by decide) canonical, if_neg deep]

end Envelope

end Turnstile
