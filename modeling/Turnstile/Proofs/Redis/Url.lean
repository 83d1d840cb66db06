import Mathlib.Data.List.TakeWhile
import Turnstile.Proofs.Text.Numeral
import Turnstile.Proofs.Text.Percent
import Turnstile.Redis.Url

/-!
# Settings written as a URL and read again

The settings of a server are written as a URL, from which the server is read. The password stands in
the URL as it is. So it is read as it was set exactly if nothing in it ends the part of the URL in
which it stands, and nothing in it is an escape (`server?_iff`).
-/

namespace Turnstile

namespace RedisUrl

/-- A letter, a digit or one of the marks that stand in names of hosts. -/
def isHostChar (c : Char) : Bool := c.isAlphanum || c = '-' || c = '.' || c = '_'

/-- A name made of letters, digits and a few marks. -/
structure IsHostName (host : String) : Prop where
  ne_empty : host ≠ ""
  chars : ∀ c ∈ host.toList, isHostChar c = true

/-- Whether a password is read from a URL as it was written into it: it ends no part of the URL, and
there is no escape in it. -/
structure IsPlain (password : String) : Prop where
  inside : ∀ c ∈ password.toList, endsAuthority c = false
  unescaped : Text.Percent.hasEscape password.toList = false

theorem ne_of_isHostChar {b c : Char} (hc : isHostChar c = true) (hb : isHostChar b = false) :
    c ≠ b := by
  rintro rfl
  rw [hc] at hb
  cases hb

theorem not_endsAuthority_of_isHostChar {c : Char} (hc : isHostChar c = true) :
    endsAuthority c = false := by
  have hslash := ne_of_isHostChar hc (b := '/') (by decide)
  have hquestion := ne_of_isHostChar hc (b := '?') (by decide)
  have hnumber := ne_of_isHostChar hc (b := '#') (by decide)
  simp [endsAuthority, hslash, hquestion, hnumber]

theorem not_isDropped_of_isHostChar {c : Char} (hc : isHostChar c = true) :
    isDropped c = false := by
  have htab := ne_of_isHostChar hc (b := '\t') (by decide)
  have hline := ne_of_isHostChar hc (b := '\n') (by decide)
  have hreturn := ne_of_isHostChar hc (b := '\r') (by decide)
  simp [isDropped, htab, hline, hreturn]

theorem isHostChar_of_mem_toDigits {n : Nat} : ∀ c ∈ Nat.toDigits 10 n, isHostChar c = true :=
  Text.forall_mem_toDigits (by decide) (by decide) n

theorem isHostChar_of_mem_toString {n : Int} : ∀ c ∈ (toString n).toList, isHostChar c = true := by
  intro c hc
  cases n with
  | ofNat n =>
    rw [show toString (Int.ofNat n) = n.repr from rfl, Text.toList_repr] at hc
    exact isHostChar_of_mem_toDigits c hc
  | negSucc n =>
    rw [show toString (Int.negSucc n) = "-" ++ (n + 1).repr from rfl, String.toList_append,
      Text.toList_repr] at hc
    rcases List.mem_append.mp hc with hc | hc
    · obtain rfl : c = '-' := by simpa using hc
      rfl
    · exact isHostChar_of_mem_toDigits c hc

/-! ## The parts of a URL -/

theorem splitLast?_eq_none {c : Char} {s : List Char} (h : c ∉ s) : splitLast? c s = none := by
  induction s with
  | nil => rfl
  | cons x rest ih =>
    rw [List.mem_cons, not_or] at h
    simp [splitLast?, ih h.2, Ne.symm h.1]

theorem splitLast?_append {c : Char} {after : List Char} (h : c ∉ after) (before : List Char) :
    splitLast? c (before ++ c :: after) = some (before, after) := by
  induction before with
  | nil => simp [splitLast?, splitLast?_eq_none h]
  | cons x rest ih => simp [splitLast?, ih]

theorem append_of_splitLast? {c : Char} {s before after : List Char}
    (h : splitLast? c s = some (before, after)) : s = before ++ c :: after := by
  induction s generalizing before with
  | nil => cases h
  | cons x rest ih =>
    unfold splitLast? at h
    split at h
    · rename_i b a hrest
      cases h
      rw [ih hrest]
      rfl
    · split at h
      · cases h
        subst x
        rfl
      · cases h

theorem takeWhile_append_cons {P : Char → Bool} {s : List Char} (hs : ∀ c ∈ s, P c = true)
    {c : Char} (hc : P c = false) (rest : List Char) :
    (s ++ c :: rest).takeWhile P = s ∧ (s ++ c :: rest).dropWhile P = c :: rest := by
  have hneg : ¬ P c = true := Bool.eq_false_iff.mp hc
  rw [List.takeWhile_append_of_pos hs, List.dropWhile_append_of_pos hs,
    List.takeWhile_cons_of_neg hneg, List.dropWhile_cons_of_neg hneg, List.append_nil]
  exact ⟨rfl, rfl⟩

theorem port?_digits {port : Nat} (range : port ≤ Text.maxU16) :
    port? (':' :: Nat.toDigits 10 port) = some port := by
  unfold port?
  split
  · rename_i heq
    cases heq
  · rename_i heq
    exact absurd (List.cons.inj heq).2 Nat.toDigits_ne_nil
  · rename_i digits _ heq
    obtain rfl : Nat.toDigits 10 port = digits := (List.cons.inj heq).2
    rw [Text.digits?_toDigits]
    exact if_pos (decide_eq_true range)
  · rename_i hcons
    exact absurd rfl (hcons _)

/-- A host and a port are read as they were written. -/
theorem hostPort?_place {host : String} (name : IsHostName host) {port : Nat}
    (range : port ≤ Text.maxU16) :
    hostPort? (host.toList ++ ':' :: Nat.toDigits 10 port) = some (host, port) := by
  have hcolon : ∀ c ∈ host.toList, (decide (c ≠ ':')) = true := fun c hc =>
    decide_eq_true (ne_of_isHostChar (name.chars c hc) (by decide))
  obtain ⟨htake, hdrop⟩ := takeWhile_append_cons hcolon (c := ':') (by decide)
    (Nat.toDigits 10 port)
  have hallowed : host.toList.any isForbidden = false := by
    rw [List.any_eq_false]
    intro c hc hforbidden
    have hnone : ∀ b ∈ '\x00' :: " <>@[\\]^|".toList, isHostChar b = false := by
      simp [isHostChar]
    have hmem : c ∈ '\x00' :: " <>@[\\]^|".toList := by simpa [isForbidden] using hforbidden
    have hfalse := hnone c hmem
    rw [name.chars c hc] at hfalse
    cases hfalse
  have hnonempty : host.toList ≠ [] := by simpa using name.ne_empty
  unfold hostPort?
  split
  · rename_i rest heq
    -- no name begins with a bracket
    obtain ⟨c, more, hhost⟩ := List.exists_cons_of_ne_nil hnonempty
    rw [hhost] at heq
    have hc := name.chars c (hhost ▸ List.mem_cons_self ..)
    exact absurd (List.cons.inj heq).1 (ne_of_isHostChar hc (by decide))
  · dsimp only
    rw [htake, hdrop, hallowed, port?_digits range]
    simp [hnonempty]

theorem dropWhile_of_forall {P : Char → Bool} {s : List Char} (h : ∀ c ∈ s, P c = false) :
    s.dropWhile P = s := by
  cases s with
  | nil => rfl
  | cons c rest => simp [h c (List.mem_cons_self ..)]

/-- A number of a database is read as it was written. -/
theorem db?_path {db : Int} (least : Text.minI64 ≤ db) (most : db ≤ Text.maxI64) :
    db? ('/' :: (toString db).toList) = some db := by
  have hslash : ∀ c ∈ (toString db).toList, decide (c = '/') = false := fun c hc =>
    decide_eq_false (ne_of_isHostChar (isHostChar_of_mem_toString c hc) (by decide))
  have htrim : trimSlashes ('/' :: (toString db).toList) = (toString db).toList := by
    have hrev : ∀ c ∈ (toString db).toList.reverse, decide (c = '/') = false := fun c hc =>
      hslash c (List.mem_reverse.mp hc)
    rw [trimSlashes, List.dropWhile_cons_of_pos (by decide), dropWhile_of_forall hslash,
      dropWhile_of_forall hrev, List.reverse_reverse]
  have hread := Text.integer?_toString least most
  unfold db?
  rw [htrim]
  split
  · rename_i hempty
    rw [hempty] at hread
    cases hread
  · exact hread

/-- The user is nobody, and the password is what stands behind the colon. -/
theorem credentials?_cons (password : List Char) :
    credentials? (':' :: password) = if password = [] then some ("", none)
      else (Text.Percent.decodeText? (String.ofList password)).map fun q => ("", some q) := by
  have hnobody : Text.Percent.decodeText? (String.ofList []) = some "" :=
    Text.Percent.decodeText?_eq_self rfl
  unfold credentials?
  rw [List.takeWhile_cons_of_neg (by decide), List.dropWhile_cons_of_neg (by decide), hnobody]
  cases password with
  | nil => rfl
  | cons c rest =>
    simp only [List.drop_succ_cons, List.drop_zero, List.isEmpty_cons, Bool.false_eq_true, if_false,
      reduceCtorEq]
    cases Text.Percent.decodeText? (String.ofList (c :: rest)) <;> rfl

/-! ## A URL as a whole -/

/-- What is read from the part with the host and the one behind it. -/
def ofParts? (authority target : List Char) : Option RedisUrl :=
  if !isQuery ((target.dropWhile (· ≠ '?')).drop 1) then none
  else do
    let (user, password) ← match splitLast? '@' authority with
      | some (before, _) => credentials? before
      | none => some ("", none)
    let (host, port) ← match splitLast? '@' authority with
      | some (_, after) => hostPort? after
      | none => hostPort? authority
    let db ← db? (target.takeWhile (· ≠ '?'))
    return ⟨host, port, db, user, password⟩

theorem ofText?_eq {text : String} {rest : List Char} (htext : text.toList = scheme ++ rest)
    (unbroken : ∀ c ∈ rest, isDropped c = false) :
    ofText? text = ofParts? (rest.takeWhile fun c => !endsAuthority c)
      ((rest.dropWhile fun c => !endsAuthority c).takeWhile (· ≠ '#')) := by
  have hkept : text.toList.filter (fun c => !isDropped c) = scheme ++ rest := by
    have hrest : rest.filter (fun c => !isDropped c) = rest := by
      rw [List.filter_eq_self]
      intro c hc
      rw [unbroken c hc]
      rfl
    rw [htext, List.filter_append, hrest]
    rfl
  unfold ofText? ofParts?
  rw [hkept]
  simp only [List.take_left, List.drop_left, ne_eq, not_true, if_false]
  rfl

/-- A password is read from what stands between the colon and the last `@`. -/
theorem password_of_ofParts? {a target : List Char} {url : RedisUrl} {q : String}
    (h : ofParts? (':' :: a) target = some url) (hq : url.password = some q) :
    ∃ before after, a = before ++ '@' :: after ∧
      Text.Percent.decodeText? (String.ofList before) = some q := by
  unfold ofParts? at h
  split at h
  · cases h
  cases hsplit : splitLast? '@' (':' :: a) with
  | none =>
    simp only [hsplit, Option.bind_eq_bind, Option.bind_eq_some_iff, pure, Option.some.injEq] at h
    obtain ⟨_, rfl, _, -, _, -, rfl⟩ := h
    cases hq
  | some parts =>
    obtain ⟨before, after⟩ := parts
    simp only [hsplit, Option.bind_eq_bind, Option.bind_eq_some_iff, pure, Option.some.injEq] at h
    obtain ⟨⟨user, password⟩, hcredentials, _, -, _, -, rfl⟩ := h
    obtain rfl : password = some q := hq
    have hauthority := append_of_splitLast? hsplit
    rcases before with _ | ⟨c, before⟩
    · exact absurd (List.cons.inj hauthority).1 (by decide)
    · obtain ⟨rfl, ha⟩ := List.cons.inj hauthority
      rw [credentials?_cons] at hcredentials
      split at hcredentials
      · cases hcredentials
      · obtain ⟨decoded, hdecoded, heq⟩ := Option.map_eq_some_iff.mp hcredentials
        cases heq
        exact ⟨before, after, ha, hdecoded⟩

end RedisUrl

namespace RedisSettings

open RedisUrl Text.Percent

variable {r : RedisSettings} {p : String}

/-- The part of the URL behind the password. -/
def place (r : RedisSettings) : List Char :=
  r.host.toList ++ ':' :: Nat.toDigits 10 r.port ++ '/' :: (toString r.db).toList

/-- Settings as they are accepted: the numbers are in their ranges. -/
structure InRange (r : RedisSettings) : Prop where
  port : r.port ≤ Text.maxU16
  db : Text.minI64 ≤ r.db ∧ r.db ≤ Text.maxI64

theorem toList_url (hp : r.password = some p) :
    r.url.toList = scheme ++ ':' :: (p.toList ++ '@' :: r.place) := by
  have hport : toString r.port = r.port.repr := rfl
  have hscheme : "redis://:".toList = scheme ++ [':'] := by decide
  have hat : "@".toList = ['@'] := by decide
  have hcolon : ":".toList = [':'] := by decide
  have hslash : "/".toList = ['/'] := by decide
  simp only [url, hp, String.toList_append, hport, Text.toList_repr, place, hscheme, hat, hcolon,
    hslash, List.append_assoc, List.cons_append, List.nil_append]

theorem not_isDropped_of_mem_place (name : IsHostName r.host) :
    ∀ c ∈ r.place, isDropped c = false := by
  intro c hc
  simp only [place, List.mem_append, List.mem_cons] at hc
  rcases hc with (hc | rfl | hc) | rfl | hc
  · exact not_isDropped_of_isHostChar (name.chars c hc)
  · rfl
  · exact not_isDropped_of_isHostChar (isHostChar_of_mem_toDigits c hc)
  · rfl
  · exact not_isDropped_of_isHostChar (isHostChar_of_mem_toString c hc)

theorem server?_eq (hp : r.password = some p) (unbroken : ∀ c ∈ p.toList, isDropped c = false)
    (name : IsHostName r.host) :
    r.server? = ofParts?
      ((':' :: (p.toList ++ '@' :: r.place)).takeWhile fun c => !endsAuthority c)
      (((':' :: (p.toList ++ '@' :: r.place)).dropWhile fun c => !endsAuthority c).takeWhile
        (· ≠ '#')) := by
  refine ofText?_eq (toList_url hp) ?_
  simp only [List.forall_mem_cons, List.forall_mem_append]
  exact ⟨rfl, unbroken, rfl, not_isDropped_of_mem_place name⟩

/-- A path that names a database has neither a query nor a fragment behind it. -/
theorem path_of_db (db : Int) : ∀ c ∈ '/' :: (toString db).toList, c ≠ '?' ∧ c ≠ '#' := by
  rw [List.forall_mem_cons]
  refine ⟨by decide, fun c hc => ?_⟩
  have hchar := isHostChar_of_mem_toString c hc
  exact ⟨ne_of_isHostChar hchar (by decide), ne_of_isHostChar hchar (by decide)⟩

/-- A password that ends no part of the URL is read as it is, but for its escapes; the place of the
server is read as it was set. -/
theorem server?_of_inside (hp : r.password = some p) (nonempty : p ≠ "")
    (unbroken : ∀ c ∈ p.toList, isDropped c = false) (name : IsHostName r.host)
    (range : r.InRange) (inside : ∀ c ∈ p.toList, endsAuthority c = false) :
    r.server? = (decodeText? p).map fun q => ⟨r.host, r.port, r.db, "", some q⟩ := by
  let target := '/' :: (toString r.db).toList
  let hostPort := r.host.toList ++ ':' :: Nat.toDigits 10 r.port
  have hlist : ':' :: (p.toList ++ '@' :: r.place) =
      ((':' :: p.toList) ++ '@' :: hostPort) ++ target := by
    simp [place, hostPort, target]
  -- host and password reach up to the slash
  have hpart : ∀ c ∈ (':' :: p.toList) ++ '@' :: hostPort, (!endsAuthority c) = true := by
    simp only [hostPort, List.forall_mem_cons, List.forall_mem_append]
    refine ⟨⟨rfl, fun c hc => by rw [inside c hc]; rfl⟩, rfl, fun c hc => ?_, rfl, fun c hc => ?_⟩
    · rw [not_endsAuthority_of_isHostChar (name.chars c hc)]
      rfl
    · rw [not_endsAuthority_of_isHostChar (isHostChar_of_mem_toDigits c hc)]
      rfl
  obtain ⟨hauthority, htarget⟩ := takeWhile_append_cons hpart (c := '/') rfl (toString r.db).toList
  have hfragment : target.takeWhile (· ≠ '#') = target :=
    List.takeWhile_eq_self_iff.mpr fun c hc => decide_eq_true (path_of_db r.db c hc).2
  have hquestion : ∀ c ∈ target, decide (c ≠ '?') = true := fun c hc =>
    decide_eq_true (path_of_db r.db c hc).1
  have hpath := List.takeWhile_eq_self_iff.mpr hquestion
  have hquery := List.dropWhile_eq_nil_iff.mpr hquestion
  have hat : '@' ∉ hostPort := by
    intro hmem
    simp only [hostPort, List.mem_append, List.mem_cons] at hmem
    rcases hmem with hmem | hmem | hmem
    · exact absurd (name.chars _ hmem) (by decide)
    · exact absurd hmem (by decide)
    · exact absurd (isHostChar_of_mem_toDigits _ hmem) (by decide)
  have hread := hostPort?_place name range.port
  have hp' : p.toList ≠ [] := by simpa using nonempty
  rw [server?_eq hp unbroken name, hlist, hauthority, htarget, hfragment, ofParts?, hpath,
    hquery, splitLast?_append hat, List.cons_append]
  dsimp only
  rw [credentials?_cons, if_neg hp', String.ofList_toList, hread, db?_path range.db.1 range.db.2]
  cases decodeText? p <;> rfl

/-- A text in which a character is met goes on to the first such character. -/
theorem exists_cut {P : Char → Bool} {s : List Char} {c : Char} (hc : c ∈ s) (hP : P c = false) :
    ∃ a d rest, s = a ++ d :: rest ∧ (∀ x ∈ a, P x = true) ∧ P d = false := by
  induction s with
  | nil => cases hc
  | cons x more ih =>
    cases hx : P x with
    | false => exact ⟨[], x, more, rfl, by simp, hx⟩
    | true =>
      have hmore : c ∈ more := by
        rcases List.mem_cons.mp hc with rfl | hmore
        · rw [hx] at hP
          cases hP
        · exact hmore
      obtain ⟨a, d, rest, rfl, ha, hd⟩ := ih hmore
      exact ⟨x :: a, d, rest, rfl, List.forall_mem_cons.mpr ⟨hx, ha⟩, hd⟩

/-- A password of which a part is cut off is not read as it is: what is read is shorter. -/
theorem password_ne_of_cut (hp : r.password = some p)
    (unbroken : ∀ c ∈ p.toList, isDropped c = false) (name : IsHostName r.host) {c : Char}
    (hc : c ∈ p.toList) (ends : endsAuthority c = true) {u : RedisUrl} (hu : r.server? = some u) :
    u.password ≠ some p := by
  intro hq
  -- only the characters before the first that ends the part are seen
  obtain ⟨a, d, rest, hlist, ha, hd⟩ := exists_cut (P := fun c => !endsAuthority c) hc
    (by rw [ends]; rfl)
  have hcut : (':' :: (p.toList ++ '@' :: r.place)).takeWhile (fun c => !endsAuthority c) =
      ':' :: a := by
    have hcons : ∀ x ∈ ':' :: a, (!endsAuthority x) = true := List.forall_mem_cons.mpr ⟨rfl, ha⟩
    have hwhole : ':' :: (p.toList ++ '@' :: r.place) =
        (':' :: a) ++ d :: (rest ++ '@' :: r.place) := by
      rw [hlist]
      simp
    rw [hwhole, (takeWhile_append_cons hcons hd _).1]
  rw [server?_eq hp unbroken name, hcut] at hu
  obtain ⟨before, after, hbefore, hdecode⟩ := password_of_ofParts? hu hq
  have hle := length_utf8_le hdecode
  have hbytes : utf8 p.toList = utf8 before ++ 0x40 :: utf8 (after ++ d :: rest) := by
    rw [hlist, hbefore, List.append_assoc, utf8_append]
    rfl
  rw [hbytes, String.toList_ofList, List.length_append, List.length_cons] at hle
  omega

/-- The password is read as it was set exactly if it is plain, and then so is the rest. -/
theorem server?_iff (hp : r.password = some p) (nonempty : p ≠ "")
    (unbroken : ∀ c ∈ p.toList, isDropped c = false) (name : IsHostName r.host)
    (range : r.InRange) {u : RedisUrl} :
    r.server? = some u ∧ u.password = some p ↔
      IsPlain p ∧ u = ⟨r.host, r.port, r.db, "", some p⟩ := by
  constructor
  · rintro ⟨hu, hq⟩
    have inside : ∀ c ∈ p.toList, endsAuthority c = false := by
      intro c hc
      cases ends : endsAuthority c with
      | false => rfl
      | true => exact absurd hq (password_ne_of_cut hp unbroken name hc ends hu)
    rw [server?_of_inside hp nonempty unbroken name range inside] at hu
    obtain ⟨q, hdecode, rfl⟩ := Option.map_eq_some_iff.mp hu
    obtain rfl : q = p := Option.some.inj hq
    refine ⟨⟨inside, ?_⟩, rfl⟩
    cases escaped : hasEscape q.toList with
    | false => rfl
    | true => exact absurd (length_utf8_lt hdecode escaped) (Nat.lt_irrefl _)
  · rintro ⟨plain, rfl⟩
    rw [server?_of_inside hp nonempty unbroken name range plain.inside,
      decodeText?_eq_self plain.unescaped]
    exact ⟨rfl, rfl⟩

end RedisSettings

end Turnstile
