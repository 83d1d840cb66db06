import Turnstile.Http.Identity
import Turnstile.Proofs.Address
import Turnstile.Proofs.Text.Grammar

/-!
# The first candidate that is not blank

Where proxies are believed, a request of nobody known is charged to the first of its `candidates`
that is not blank, without the blank space around it. Since the last candidate is not blank there is
always one. What does not change the first candidate does not change the identity: blank space and
blank entries in the header `x-forwarded-for` (`Padded`), later headers of a name that came before,
and headers that cannot be read or say nothing.
-/

namespace Turnstile

/-! ## Entries with commas between them -/

/-- The pieces between commas. -/
theorem commaPieces_eq_splitOn (cs : List Char) : commaPieces cs = cs.splitOn ',' := by
  induction cs with
  | nil => rfl
  | cons c rest ih =>
    rw [commaPieces, ih, List.splitOn, List.splitOn, List.splitOnP_cons_eq_if_modifyHead]
    by_cases hc : c = ','
    · simp [hc]
    · cases hpieces : rest.splitOnP (· == ',') with
      | nil => cases List.splitOnP_ne_nil _ _ hpieces
      | cons piece more => simp [hc]

/-- What holds of the comma holds of all characters of a text if it holds of those of its pieces. -/
theorem all_eq_all_commaPieces {p : Char → Bool} (comma : p ',' = true) (cs : List Char) :
    cs.all p = (commaPieces cs).all fun piece => piece.all p := by
  induction cs with
  | nil => rfl
  | cons c rest ih =>
    rw [commaPieces, List.all_cons, ih]
    by_cases hc : c = ','
    · simp [hc, comma]
    · rw [if_neg hc]
      cases commaPieces rest with
      | nil => simp
      | cons piece more => simp [Bool.and_assoc]

/-- A comma is not blank, so that a blank text has no other entry than itself. -/
theorem commaPieces_blank {cs : List Char} (h : cs.all Text.isBlank = true) :
    commaPieces cs = [cs] := by
  rw [commaPieces_eq_splitOn]
  apply List.splitOn_eq_singleton
  intro hmem
  have hcomma := List.all_eq_true.mp h ',' hmem
  exact absurd hcomma (by decide)

/-- Only spaces and tabs. -/
def IsPadding (cs : List Char) : Prop := ∀ c ∈ cs, c = ' ' ∨ c = '\t'

/-- The second list has the entries of the first, with spaces and tabs around any of them and blank
entries anywhere. -/
inductive Padded : List (List Char) → List (List Char) → Prop where
  | nil : Padded [] []
  | entry {before after : List Char} {entry : List Char} {entries padded : List (List Char)}
      (hbefore : IsPadding before) (hafter : IsPadding after) (rest : Padded entries padded) :
      Padded (entry :: entries) ((before ++ entry ++ after) :: padded)
  | blank {filler : List Char} {entries padded : List (List Char)} (hfiller : IsPadding filler)
      (rest : Padded entries padded) : Padded entries (filler :: padded)

namespace IsPadding

variable {cs : List Char}

theorem all {p : Char → Bool} (h : IsPadding cs) (space : p ' ' = true) (tab : p '\t' = true) :
    cs.all p = true := by
  rw [List.all_eq_true]
  intro c hc
  rcases h c hc with rfl | rfl
  · exact space
  · exact tab

theorem blank (h : IsPadding cs) : cs.all Text.isBlank = true := h.all (by decide) (by decide)

end IsPadding

/-- Blank space around a text is taken off with that of its own. -/
theorem Text.trimChars_framed {before cs after : List Char} (hbefore : before.all isBlank = true)
    (hafter : after.all isBlank = true) : trimChars (before ++ cs ++ after) = trimChars cs := by
  obtain ⟨⟨left, right, hcs, hleft, hright⟩, first, last⟩ := trims_trimChars cs
  apply trimChars_of_trims
  refine ⟨⟨before ++ left, right ++ after, ?_, ?_, ?_⟩, first, last⟩
  · nth_rewrite 1 [hcs]
    simp only [List.append_assoc]
  · intro c hc
    rcases List.mem_append.mp hc with hc | hc
    · exact List.all_eq_true.mp hbefore c hc
    · exact hleft c hc
  · intro c hc
    rcases List.mem_append.mp hc with hc | hc
    · exact hright c hc
    · exact List.all_eq_true.mp hafter c hc

namespace Request

/-! ## The first that is not blank -/

/-- The first candidate that is not blank, without the blank space around it. -/
def firstAddress? (candidates : List String) : Option String :=
  (candidates.find? fun candidate => !Text.isBlankText candidate).map Text.trim

theorem firstAddress?_append (candidates more : List String) :
    firstAddress? (candidates ++ more) =
      (firstAddress? candidates).or (firstAddress? more) := by
  rw [firstAddress?, firstAddress?, firstAddress?, List.find?_append, Option.map_or]

theorem firstAddress?_singleton (candidate : String) : firstAddress? [candidate] =
    if Text.isBlankText candidate then none else some (Text.trim candidate) := by
  cases hblank : Text.isBlankText candidate <;> simp [firstAddress?, hblank]

/-- The entries of a header that lists addresses. -/
def entries (value : String) : List String := (value.toList.splitOn ',').map String.ofList

theorem entries_eq_commaPieces (value : String) :
    entries value = (commaPieces value.toList).map String.ofList := by
  rw [entries, commaPieces_eq_splitOn]

theorem firstAddress?_ofList (entry : List Char) (more : List String) :
    firstAddress? (String.ofList entry :: more) =
      if entry.all Text.isBlank then firstAddress? more
      else some (String.ofList (Text.trimChars entry)) := by
  cases hentry : entry.all Text.isBlank <;>
    simp [firstAddress?, Text.isBlankText, Text.trim, hentry]

/-- Padding does not change the first address. -/
theorem firstAddress?_padded {pieces padded : List (List Char)} (h : Padded pieces padded) :
    firstAddress? (padded.map String.ofList) = firstAddress? (pieces.map String.ofList) := by
  induction h with
  | nil => rfl
  | @entry before after entry _ _ hbefore hafter _ ih =>
    have hall : (before ++ entry ++ after).all Text.isBlank = entry.all Text.isBlank := by
      rw [List.all_append, List.all_append, hbefore.blank, hafter.blank, Bool.true_and,
        Bool.and_true]
    rw [List.map_cons, List.map_cons, firstAddress?_ofList, firstAddress?_ofList, hall, ih,
      Text.trimChars_framed hbefore.blank hafter.blank]
  | blank hfiller _ ih => rw [List.map_cons, firstAddress?_ofList, if_pos hfiller.blank, ih]

/-- What holds of spaces and tabs holds of the entries with padding if it holds of those without. -/
theorem all_padded {pieces padded : List (List Char)} {p : Char → Bool}
    (space : p ' ' = true) (tab : p '\t' = true) (h : Padded pieces padded) :
    (padded.all fun piece => piece.all p) = pieces.all fun piece => piece.all p := by
  induction h with
  | nil => rfl
  | entry hbefore hafter _ ih =>
    simp only [List.all_cons, List.all_append, ih, hbefore.all space tab, hafter.all space tab,
      Bool.true_and, Bool.and_true]
  | blank hfiller _ ih => rw [List.all_cons, ih, hfiller.all space tab, Bool.true_and]

theorem isReadable_padded {value padded : String}
    (h : Padded (value.toList.splitOn ',') (padded.toList.splitOn ',')) :
    isReadable padded = isReadable value := by
  rw [← commaPieces_eq_splitOn, ← commaPieces_eq_splitOn] at h
  rw [isReadable, isReadable, all_eq_all_commaPieces (by decide),
    all_eq_all_commaPieces (by decide)]
  exact all_padded (by decide) (by decide) h

/-! ## What a request says of its address -/

/-- The addresses that a request may be charged to, the first choice first: the header `x-real-ip`
as a whole, the entries of the header `x-forwarded-for`, the peer, and one for all the rest. -/
def candidates (r : Request) : List String :=
  (r.readableHeader? "x-real-ip").toList ++
    (r.readableHeader? "x-forwarded-for").toList.flatMap entries ++
      (r.peer.map Address.text).toList ++ [unknownAddress]

/-- The first entry that is not blank. -/
theorem firstAddress?_entries (value : String) : firstAddress? (entries value) =
    (((commaPieces value.toList).find? fun piece => !piece.all Text.isBlank).map
      String.ofList).map Text.trim := by
  rw [entries_eq_commaPieces, firstAddress?, List.find?_map]
  simp only [Function.comp_def, Text.isBlankText, String.toList_ofList]

/-- What the headers have to offer. -/
theorem map_trim_forwardedAddress? (r : Request) : r.forwardedAddress?.map Text.trim =
    (firstAddress? (r.readableHeader? "x-real-ip").toList).or
      (firstAddress? ((r.readableHeader? "x-forwarded-for").toList.flatMap entries)) := by
  have hentries : firstAddress? ((r.readableHeader? "x-forwarded-for").toList.flatMap entries) =
      (r.readableHeader? "x-forwarded-for").bind fun value => firstAddress? (entries value) := by
    cases r.readableHeader? "x-forwarded-for" with
    | none => rfl
    | some value => simp
  have hreal : firstAddress? (r.readableHeader? "x-real-ip").toList =
      ((r.readableHeader? "x-real-ip").filter fun v => !Text.isBlankText v).map Text.trim := by
    cases r.readableHeader? "x-real-ip" with
    | none => rfl
    | some value =>
      rw [Option.toList_some, firstAddress?_singleton]
      cases hblank : Text.isBlankText value <;> simp [Option.filter, hblank]
  rw [hentries, hreal, forwardedAddress?]
  cases (r.readableHeader? "x-real-ip").filter fun v => !Text.isBlankText v with
  | some value => rfl
  | none =>
    cases r.readableHeader? "x-forwarded-for" with
    | none => rfl
    | some value => exact (firstAddress?_entries value).symm

/-- There is a character in the text of an address, and it is not blank. -/
theorem not_isBlankText_text (a : Address) : Text.isBlankText a.text = false := by
  have hblank : ∀ c ∈ a.text.toList, Text.isBlank c = false :=
    Address.forall_mem_text (by decide) (by decide) (by decide) a
  cases htext : a.text.toList with
  | nil =>
    have hread := Address.ofText?_text a
    rw [htext] at hread
    cases hread
  | cons c rest => simp [Text.isBlankText, htext, hblank c (by simp [htext])]

theorem firstAddress?_candidates (r : Request) :
    firstAddress? r.candidates = some (r.chargedAddress true) := by
  rw [candidates, firstAddress?_append, firstAddress?_append, firstAddress?_append,
    ← map_trim_forwardedAddress?, chargedAddress]
  cases r.forwardedAddress? with
  | some address => rfl
  | none =>
    cases r.peer with
    | some address => simp [firstAddress?_singleton, not_isBlankText_text]
    | none => decide

/-- Requests of the same peer whose headers have the same to offer have the same identity. -/
theorem identity_congr {r r' : Request} (caller : r'.caller = r.caller) (peer : r'.peer = r.peer)
    (real : firstAddress? (r'.readableHeader? "x-real-ip").toList =
      firstAddress? (r.readableHeader? "x-real-ip").toList)
    (forwarded : firstAddress? ((r'.readableHeader? "x-forwarded-for").toList.flatMap entries) =
      firstAddress? ((r.readableHeader? "x-forwarded-for").toList.flatMap entries)) :
    r'.identity true = r.identity true := by
  have hfirst : firstAddress? r'.candidates = firstAddress? r.candidates := by
    simp only [candidates, firstAddress?_append, real, forwarded, peer]
  rw [firstAddress?_candidates, firstAddress?_candidates] at hfirst
  rw [identity, identity, caller, Option.some.inj hfirst]

/-- What is left of a text that is not blank. -/
theorem trim_ne_empty {value : String} (h : Text.isBlankText value = false) :
    Text.trim value ≠ "" := by
  intro hempty
  obtain ⟨⟨before, after, hvalue, hbefore, hafter⟩, -, -⟩ := Text.trims_trimChars value.toList
  have hcore : Text.trimChars value.toList = [] := by
    have htext := congrArg String.toList hempty
    rwa [Text.trim, String.toList_ofList] at htext
  have hblank : value.toList.all Text.isBlank = true := by
    rw [hvalue, hcore, List.append_nil, List.all_append, List.all_eq_true.mpr hbefore,
      List.all_eq_true.mpr hafter, Bool.true_and]
  rw [Text.isBlankText, hblank] at h
  cases h

/-! ## Headers that do not matter -/

/-- The request with other headers. -/
def withHeaders (r : Request) (headers : List (String × String)) : Request :=
  { r with headers := headers }

/-- The request as if it had no header of that name. -/
def without (r : Request) (name : String) : Request :=
  r.withHeaders (r.headers.filter fun h => h.1.toLower ≠ name)

theorem header?_withHeaders (r : Request) (headers : List (String × String)) (name : String) :
    (r.withHeaders headers).header? name =
      (headers.find? fun h => h.1.toLower = name).map (·.2) := rfl

/-- Only the first header of a name is looked at. -/
theorem header?_repeat (r : Request) {earlier : List (String × String)} {name : String}
    (known : ∃ h ∈ earlier, h.1.toLower = name.toLower) (value : String)
    (later : List (String × String)) (wanted : String) :
    (r.withHeaders (earlier ++ (name, value) :: later)).header? wanted =
      (r.withHeaders (earlier ++ later)).header? wanted := by
  rw [header?_withHeaders, header?_withHeaders, List.find?_append, List.find?_append,
    List.find?_cons]
  by_cases hname : name.toLower = wanted
  · obtain ⟨h, hmem, hlower⟩ := known
    have hfound : (earlier.find? fun h => h.1.toLower = wanted).isSome = true := by
      rw [List.find?_isSome]
      exact ⟨h, hmem, by simp [hlower, hname]⟩
    obtain ⟨first, hfirst⟩ := Option.isSome_iff_exists.mp hfound
    rw [hfirst, Option.some_or, Option.some_or]
  · simp [hname]

theorem header?_without (r : Request) (name wanted : String) :
    (r.without name).header? wanted = if wanted = name then none else r.header? wanted := by
  rw [without, header?_withHeaders, List.find?_filter, header?]
  split
  · rename_i hname
    rw [List.find?_eq_none.mpr, Option.map_none]
    intro h _
    by_cases hlower : h.1.toLower = name <;> simp [hname, hlower]
  · rename_i hname
    congr 2
    funext h
    by_cases hlower : h.1.toLower = wanted <;> simp [hlower, hname]

theorem readableHeader?_without (r : Request) (name wanted : String) :
    (r.without name).readableHeader? wanted =
      if wanted = name then none else r.readableHeader? wanted := by
  rw [readableHeader?, header?_without]
  split
  · rfl
  · rfl

/-- Of two values in the same place the one is looked at where the other is. -/
theorem header?_replaced (r : Request) (earlier later : List (String × String))
    (name value value' wanted : String) :
    (r.withHeaders (earlier ++ (name, value') :: later)).header? wanted =
        (r.withHeaders (earlier ++ (name, value) :: later)).header? wanted ∨
      wanted = name.toLower ∧
        (r.withHeaders (earlier ++ (name, value) :: later)).header? wanted = some value ∧
        (r.withHeaders (earlier ++ (name, value') :: later)).header? wanted = some value' := by
  simp only [header?_withHeaders, List.find?_append]
  cases earlier.find? fun h => h.1.toLower = wanted with
  | some first => exact .inl rfl
  | none =>
    by_cases hname : name.toLower = wanted
    · exact .inr ⟨hname.symm, by simp [hname], by simp [hname]⟩
    · exact .inl (by simp [hname])

/-- Blank space around the entries of `x-forwarded-for` and blank ones between them. -/
theorem identity_padded (r : Request) (earlier later : List (String × String)) {name : String}
    (hname : name.toLower = "x-forwarded-for") {value padded : String}
    (h : Padded (value.toList.splitOn ',') (padded.toList.splitOn ',')) :
    (r.withHeaders (earlier ++ (name, padded) :: later)).identity true =
      (r.withHeaders (earlier ++ (name, value) :: later)).identity true := by
  have hheader := header?_replaced r earlier later name value padded
  refine identity_congr rfl rfl ?_ ?_
  · rcases hheader "x-real-ip" with hsame | ⟨hother, -⟩
    · rw [readableHeader?, readableHeader?, hsame]
    · rw [hname] at hother
      exact absurd hother (by decide)
  · rcases hheader "x-forwarded-for" with hsame | ⟨-, hvalue, hpadded⟩
    · rw [readableHeader?, readableHeader?, hsame]
    · rw [readableHeader?, readableHeader?, hvalue, hpadded, Option.filter, Option.filter,
        isReadable_padded h]
      cases isReadable value with
      | false => rfl
      | true => simpa [entries] using firstAddress?_padded h

/-- Later headers of a name that came before. -/
theorem identity_repeat (r : Request) {earlier : List (String × String)} {name : String}
    (known : ∃ h ∈ earlier, h.1.toLower = name.toLower) (value : String)
    (later : List (String × String)) :
    (r.withHeaders (earlier ++ (name, value) :: later)).identity true =
      (r.withHeaders (earlier ++ later)).identity true := by
  have hheader := header?_repeat r known value later
  refine identity_congr rfl rfl ?_ ?_
  · rw [readableHeader?, readableHeader?, hheader]
  · rw [readableHeader?, readableHeader?, hheader]

/-- A header without an address in it offers as much as none. -/
theorem firstAddress?_of_useless {r : Request} {name value : String}
    (header : r.header? name = some value)
    (useless : isReadable value = false ∨ Text.isBlankText value = true) :
    firstAddress? (r.readableHeader? name).toList = none ∧
      firstAddress? ((r.readableHeader? name).toList.flatMap entries) = none := by
  rw [readableHeader?, header, Option.filter]
  rcases useless with hunreadable | hblank
  · simp [hunreadable, firstAddress?]
  · have hentries : entries value = [value] := by
      rw [entries_eq_commaPieces, commaPieces_blank hblank, List.map_singleton,
        String.ofList_toList]
    cases isReadable value with
    | false => exact ⟨rfl, rfl⟩
    | true => simp [hentries, firstAddress?_singleton, hblank]

/-- A header that cannot be read or is blank, and all later ones of its name. -/
theorem identity_without {r : Request} {name value : String} (header : r.header? name = some value)
    (useless : isReadable value = false ∨ Text.isBlankText value = true) :
    r.identity true = (r.without name).identity true := by
  obtain ⟨hwhole, hsplit⟩ := firstAddress?_of_useless header useless
  refine identity_congr rfl rfl ?_ ?_
  · rw [readableHeader?_without]
    split
    · rename_i hname
      rw [hname, hwhole]
      rfl
    · rfl
  · rw [readableHeader?_without]
    split
    · rename_i hname
      rw [hname, hsplit]
      rfl
    · rfl

/-! ## The identity -/

/-- A known caller is charged under its own name. Anybody else is charged to the first candidate
that is not blank, without the blank space around it, which leaves a text that neither begins nor
ends with blank space. Padding in `x-forwarded-for` does not matter, nor does a header whose name
came before, and a header that cannot be read or is blank is as good as none. -/
theorem identity_firstCandidate (r : Request) :
    (∀ caller, r.caller = some caller → ∀ trust, r.identity trust = caller) ∧
    (r.caller = none → ∃ address,
      r.candidates.find? (fun candidate => !Text.isBlankText candidate) = some address ∧
      r.identity true = "ip:" ++ Text.trim address ∧ Text.trim address ≠ "" ∧
      (∀ c ∈ (Text.trim address).toList.head?, Text.isBlank c = false) ∧
      ∀ c ∈ (Text.trim address).toList.getLast?, Text.isBlank c = false) ∧
    (∀ (earlier later : List (String × String)) (name value padded : String),
      name.toLower = "x-forwarded-for" →
      Padded (value.toList.splitOn ',') (padded.toList.splitOn ',') →
      (r.withHeaders (earlier ++ (name, padded) :: later)).identity true =
        (r.withHeaders (earlier ++ (name, value) :: later)).identity true) ∧
    (∀ (earlier later : List (String × String)) (name value : String),
      (∃ h ∈ earlier, h.1.toLower = name.toLower) →
      (r.withHeaders (earlier ++ (name, value) :: later)).identity true =
        (r.withHeaders (earlier ++ later)).identity true) ∧
    ∀ name value : String, r.header? name = some value →
      isReadable value = false ∨ Text.isBlankText value = true →
      r.identity true = (r.without name).identity true := by
  refine ⟨fun caller hcaller trust => identity_of_caller hcaller trust, ?_, ?_, ?_, ?_⟩
  · intro unknown
    have hfirst := firstAddress?_candidates r
    rw [firstAddress?, Option.map_eq_some_iff] at hfirst
    obtain ⟨address, hfound, htrim⟩ := hfirst
    have hblank : Text.isBlankText address = false := by
      simpa using List.find?_some hfound
    have hidentity : r.identity true = "ip:" ++ Text.trim address := by
      rw [identity, unknown, htrim]
      rfl
    obtain ⟨-, first, last⟩ := Text.trims_trimChars address.toList
    refine ⟨address, hfound, hidentity, trim_ne_empty hblank, ?_, ?_⟩
    · rwa [Text.trim, String.toList_ofList]
    · rwa [Text.trim, String.toList_ofList]
  · intro earlier later name value padded hname h
    exact identity_padded r earlier later hname h
  · intro earlier later name value known
    exact identity_repeat r known value later
  · intro name value header useless
    exact identity_without header useless

/-- Behind a proxy whose `x-real-ip` is blank: the first entry counts, with padding and without. -/
theorem identity_firstCandidate_blankRealIp :
    let r : Request := ⟨"GET", "/", [("X-Real-IP", " \t"), ("X-Forwarded-For", "5.6.7.8,9.9.9.9")],
      some (.v4 10 0 0 3), none⟩
    Request.identity { r with caller := some "user-7" } true = "user-7" ∧
    (∃ address, r.candidates.find? (fun candidate => !Text.isBlankText candidate) = some address ∧
      r.identity true = "ip:" ++ Text.trim address ∧ Text.trim address ≠ "" ∧
      (∀ c ∈ (Text.trim address).toList.head?, Text.isBlank c = false) ∧
      ∀ c ∈ (Text.trim address).toList.getLast?, Text.isBlank c = false) ∧
    r.identity true = "ip:5.6.7.8" ∧
    (r.withHeaders ([("X-Real-IP", " \t")] ++
      ("X-Forwarded-For", " , 5.6.7.8\t,9.9.9.9") :: [])).identity true = r.identity true ∧
    (r.withHeaders ([("X-Real-IP", " \t")] ++
      ("x-real-ip", "1.2.3.4") :: [("X-Forwarded-For", "5.6.7.8,9.9.9.9")])).identity true =
        r.identity true ∧
    r.identity true = (r.without "x-real-ip").identity true := by
  intro r
  obtain ⟨-, first, padded, repeated, useless⟩ := identity_firstCandidate r
  have hpadded : Padded ("5.6.7.8,9.9.9.9".toList.splitOn ',')
      (" , 5.6.7.8\t,9.9.9.9".toList.splitOn ',') := by
    have space : IsPadding [' '] := by simp [IsPadding]
    have tab : IsPadding ['\t'] := by simp [IsPadding]
    have none : IsPadding [] := by simp [IsPadding]
    have hvalue : "5.6.7.8,9.9.9.9".toList.splitOn ',' = ["5.6.7.8".toList, "9.9.9.9".toList] := by
      decide +kernel
    have hspread : " , 5.6.7.8\t,9.9.9.9".toList.splitOn ',' =
        [[' '], [' '] ++ "5.6.7.8".toList ++ ['\t'], [] ++ "9.9.9.9".toList ++ []] := by
      decide +kernel
    rw [hvalue, hspread]
    exact .blank space (.entry space tab (.entry none none .nil))
  have hupper : "X-Real-IP".toLower = "x-real-ip" := by decide +kernel
  have hlower : "x-real-ip".toLower = "x-real-ip" := by decide +kernel
  refine ⟨?_, first rfl, by decide +kernel, ?_, ?_, ?_⟩
  · exact (identity_firstCandidate { r with caller := some "user-7" }).1 "user-7" rfl true
  · exact padded [("X-Real-IP", " \t")] [] "X-Forwarded-For" "5.6.7.8,9.9.9.9"
      " , 5.6.7.8\t,9.9.9.9" (by decide +kernel) hpadded
  · exact repeated [("X-Real-IP", " \t")] [("X-Forwarded-For", "5.6.7.8,9.9.9.9")] "x-real-ip"
      "1.2.3.4" ⟨("X-Real-IP", " \t"), List.mem_singleton.mpr rfl, hupper.trans hlower.symm⟩
  · exact useless "x-real-ip" " \t" (by decide +kernel) (.inr (by decide))

end Request

end Turnstile
