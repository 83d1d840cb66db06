import Turnstile.Proofs.Redis.Handshakes
import Turnstile.Proofs.Text.Grammar

/-!
# Which settings are accepted

Every typed setting has a language: the texts that it may be set to, and what each of them stands
for. Settings are accepted exactly if each typed one is missing or is set to a text of its language
(`ofLookup_grammar`), and then they are what the texts describe (`Describes`). Otherwise the first
setting with a text outside its language is reported (`FirstInvalid`), whatever comes after it.
-/

namespace Turnstile

namespace Settings

/-! ## Languages -/

/-- The texts of a form, and what each of them stands for. -/
abbrev Language (α : Type) := String → α → Prop

/-- The texts of a form with blank space around them. -/
def padded {α : Type} (form : List Char → α → Prop) : Language α := fun raw value =>
  ∃ core, Text.Trims raw.toList core ∧ form core value

/-- A natural number of at most `most`. -/
def naturalUpTo (most : Nat) : Language Nat := padded fun core n => Text.Natural core n ∧ n ≤ most

/-- An integer of sixty-four bits. -/
def integerLanguage : Language Int :=
  padded fun core n => Text.Integer core n ∧ Text.minI64 ≤ n ∧ n ≤ Text.maxI64

/-- One of a few words, in any case. -/
def oneOf {α : Type} (words : List (String × α)) : Language α :=
  padded fun core value => ∃ word, (word, value) ∈ words ∧ Text.Spells core word

def switchLanguage : Language Bool :=
  oneOf [("1", true), ("true", true), ("yes", true), ("on", true),
    ("0", false), ("false", false), ("no", false), ("off", false)]

def storeLanguage : Language StoreKind := oneOf [("redis", .redis), ("memory", .memory)]

/-- The language has the texts that can be read in the form, with what they are read as. -/
def Reads {α : Type} (form : String → Option α) (language : Language α) : Prop :=
  ∀ raw value, form raw = some value ↔ language raw value

/-- What is read from the trimmed characters is read from the text. -/
theorem reads_padded {α : Type} {form : List Char → Option α} {core : List Char → α → Prop}
    (h : ∀ cs value, form cs = some value ↔ core cs value) :
    Reads (fun raw => form (Text.trimChars raw.toList)) (padded core) := by
  intro raw value
  rw [h]
  constructor
  · exact fun hcore => ⟨_, Text.trims_trimChars _, hcore⟩
  · rintro ⟨cs, trims, hcore⟩
    rwa [Text.trimChars_of_trims trims]

theorem reads_port? : Reads port? (naturalUpTo Text.maxU16) :=
  reads_padded fun _ _ => Text.natural?_eq_some_iff

theorem reads_count? : Reads count? (naturalUpTo Text.maxU64) :=
  reads_padded fun _ _ => Text.natural?_eq_some_iff

theorem reads_signed? : Reads signed? integerLanguage :=
  reads_padded fun _ _ => Text.integer?_eq_some_iff

/-- One of a few words is read in any case. -/
theorem reads_oneOf {α : Type} {form : String → Option α} {words : List (String × α)}
    (lower : ∀ w ∈ words, ∀ d ∈ w.1.toList, ¬(65 ≤ d.toNat ∧ d.toNat ≤ 90))
    (h : ∀ raw value, form raw = some value ↔
      ∃ word, (word, value) ∈ words ∧ normalized raw = word.toList) :
    Reads form (oneOf words) := by
  intro raw value
  rw [h]
  constructor
  · rintro ⟨word, hword, hraw⟩
    exact ⟨_, Text.trims_trimChars _, word, hword,
      (Text.map_toLower_eq_iff (lower _ hword)).mp hraw⟩
  · rintro ⟨core, trims, word, hword, spells⟩
    refine ⟨word, hword, ?_⟩
    rw [normalized, Text.trimChars_of_trims trims]
    exact (Text.map_toLower_eq_iff (lower _ hword)).mpr spells

theorem reads_switch? : Reads switch? switchLanguage := by
  refine reads_oneOf (by simp) fun raw value => ?_
  unfold switch?
  generalize normalized raw = word
  simp only [List.mem_cons, List.not_mem_nil, or_false, Prod.mk.injEq]
  constructor
  · intro h
    split at h
    · rename_i hword
      cases h
      rcases hword with hword | hword | hword | hword <;> exact ⟨_, by simp, hword⟩
    · split at h
      · rename_i hword
        cases h
        rcases hword with hword | hword | hword | hword <;> exact ⟨_, by simp, hword⟩
      · cases h
  · rintro ⟨word, hword, rfl⟩
    rcases hword with h | h | h | h | h | h | h | h <;> obtain ⟨rfl, rfl⟩ := h <;> decide

theorem reads_store? : Reads store? storeLanguage := by
  refine reads_oneOf (by simp) fun raw value => ?_
  unfold store?
  generalize normalized raw = word
  simp only [List.mem_cons, List.not_mem_nil, or_false, Prod.mk.injEq]
  constructor
  · intro h
    split at h
    · cases h
      exact ⟨"redis", by simp, ‹_›⟩
    · split at h
      · cases h
        exact ⟨"memory", by simp, ‹_›⟩
      · cases h
  · rintro ⟨word, hword, rfl⟩
    rcases hword with h | h <;> obtain ⟨rfl, rfl⟩ := h <;> decide

/-! ## One setting -/

/-- A typed setting: its name and its language. -/
structure Typed where
  name : String
  accepts : String → Prop

/-- The setting of that name, with what it may be set to. -/
def Typed.of {α : Type} (name : String) (language : Language α) : Typed :=
  ⟨name, fun raw => ∃ value, language raw value⟩

/-- The setting is missing, or is set to a text of its language. -/
def Typed.Sound (f : Typed) (lookup : Lookup) : Prop :=
  ∀ raw, lookup f.name = some raw → f.accepts raw

/-- What a setting comes to: what its text stands for, or the default if it is missing. -/
def Yields {α : Type} (lookup : Lookup) (name : String) (language : Language α) (default : α)
    (value : α) : Prop :=
  match lookup name with
  | some raw => language raw value
  | none => value = default

/-- The first setting of a list that is set to a text outside its language, with that text. -/
inductive FirstInvalid (lookup : Lookup) : List Typed → InvalidSetting → Prop where
  | here {f : Typed} {rest : List Typed} {raw : String} (set : lookup f.name = some raw)
    (refused : ¬f.accepts raw) : FirstInvalid lookup (f :: rest) ⟨f.name, raw⟩
  | later {f : Typed} {rest : List Typed} {e : InvalidSetting} (sound : f.Sound lookup)
    (invalid : FirstInvalid lookup rest e) : FirstInvalid lookup (f :: rest) e

/-- Either all settings are sound or there is a first one that is not. -/
theorem sound_or_firstInvalid (lookup : Lookup) (fields : List Typed) :
    (∀ f ∈ fields, f.Sound lookup) ∨ ∃ e, FirstInvalid lookup fields e := by
  induction fields with
  | nil => exact .inl fun _ hf => nomatch hf
  | cons f rest ih =>
    by_cases sound : f.Sound lookup
    · rcases ih with ih | ⟨e, invalid⟩
      · exact .inl (List.forall_mem_cons.mpr ⟨sound, ih⟩)
      · exact .inr ⟨e, .later sound invalid⟩
    · simp only [Typed.Sound, not_forall] at sound
      obtain ⟨raw, set, refused⟩ := sound
      exact .inr ⟨_, .here set refused⟩

theorem FirstInvalid.not_sound {lookup : Lookup} {fields : List Typed} {e : InvalidSetting}
    (invalid : FirstInvalid lookup fields e) : ∃ f ∈ fields, f.name = e.key ∧ ¬f.Sound lookup := by
  induction invalid with
  | @here f rest raw set refused =>
    exact ⟨f, List.mem_cons_self .., rfl, fun sound => refused (sound raw set)⟩
  | @later f rest e sound invalid ih =>
    obtain ⟨g, hg, hname, unsound⟩ := ih
    exact ⟨g, List.mem_cons_of_mem f hg, hname, unsound⟩

/-- The settings of a list up to the one of that name. -/
def upTo (key : String) : List Typed → List Typed
  | [] => []
  | f :: rest => if f.name = key then [f] else f :: upTo key rest

/-- What comes after the first setting that is refused does not matter. -/
theorem FirstInvalid.congr {lookup other : Lookup} {fields : List Typed} {e : InvalidSetting}
    (invalid : FirstInvalid lookup fields e) (distinct : (fields.map (·.name)).Nodup)
    (same : ∀ f ∈ upTo e.key fields, other f.name = lookup f.name) :
    FirstInvalid other fields e := by
  induction invalid with
  | @here f rest raw set refused =>
    have hset : other f.name = some raw := by
      rw [← set]
      exact same f (by simp [upTo])
    exact .here hset refused
  | @later f rest e sound invalid ih =>
    rw [List.map_cons, List.nodup_cons] at distinct
    have hne : f.name ≠ e.key := by
      obtain ⟨g, hg, hname, -⟩ := invalid.not_sound
      exact fun h => distinct.1 (h ▸ hname ▸ List.mem_map_of_mem hg)
    simp only [upTo, if_neg hne, List.forall_mem_cons] at same
    refine .later (fun raw set => sound raw ?_) (ih distinct.2 same.2)
    rw [← same.1, set]

section

variable {α β : Type} {lookup : Lookup} {key : String} {form : String → Option α}
  {language : Language α} {default value : α} {e : InvalidSetting}

theorem read_eq_ok_iff (reads : Reads form language) :
    read lookup key form default = .ok value ↔ Yields lookup key language default value := by
  unfold read Yields
  cases lookup key with
  | none => simp [eq_comm]
  | some raw =>
    simp only [← reads raw value]
    cases form raw <;> simp

theorem bind_eq_ok_iff {x : Except InvalidSetting α} {f : α → Except InvalidSetting β} {b : β} :
    x >>= f = .ok b ↔ ∃ a, x = .ok a ∧ f a = .ok b := by
  refine ⟨bind_eq_ok, ?_⟩
  rintro ⟨a, rfl, h⟩
  exact h

/-- A setting is refused in its place, before the ones that are read after it. -/
theorem bind_read_eq_error_iff (reads : Reads form language) {rest : List Typed}
    {next : α → Except InvalidSetting β}
    (hnext : ∀ a, next a = .error e ↔ FirstInvalid lookup rest e) :
    read lookup key form default >>= next = .error e ↔
      FirstInvalid lookup (.of key language :: rest) e := by
  have sound_iff : ∀ raw value, lookup key = some raw → form raw = some value →
      (Typed.of key language).Sound lookup := by
    intro raw value set accepted raw' set'
    obtain rfl : raw = raw' := Option.some.inj (set.symm.trans set')
    exact ⟨value, (reads raw value).mp accepted⟩
  cases hset : lookup key with
  | none =>
    have hread : read lookup key form default = .ok default := by simp only [read, hset]
    have sound : (Typed.of key language).Sound lookup := fun raw set => by
      rw [show lookup key = some raw from set] at hset
      cases hset
    rw [hread]
    refine (hnext default).trans ⟨.later sound, fun invalid => ?_⟩
    cases invalid with
    | here set refused => exact absurd (sound _ set) refused
    | later _ invalid => exact invalid
  | some raw =>
    cases hform : form raw with
    | none =>
      have hread : read lookup key form default = .error ⟨key, raw⟩ := by
        simp only [read, hset, hform]
      have refused : ¬(Typed.of key language).accepts raw := by
        rintro ⟨value, hvalue⟩
        rw [(reads raw value).mpr hvalue] at hform
        cases hform
      rw [hread]
      constructor
      · intro h
        cases h
        exact .here hset refused
      · intro invalid
        cases invalid with
        | here set _ =>
          obtain rfl := Option.some.inj (hset.symm.trans set)
          rfl
        | later sound _ => exact absurd (sound raw hset) refused
    | some value =>
      have hread : read lookup key form default = .ok value := by simp only [read, hset, hform]
      have sound := sound_iff raw value hset hform
      rw [hread]
      refine (hnext value).trans ⟨.later sound, fun invalid => ?_⟩
      cases invalid with
      | here set refused => exact absurd (sound _ set) refused
      | later _ invalid => exact invalid

end

/-! ## All settings -/

/-- The typed settings, in the order in which they are read. -/
def typed : List Typed := [
  .of "SERVER_PORT" (naturalUpTo Text.maxU16),
  .of "CACHE_BACKEND" storeLanguage,
  .of "REDIS_PORT" (naturalUpTo Text.maxU16),
  .of "REDIS_DB" integerLanguage,
  .of "REDIS_MAX_CONNECTIONS" (naturalUpTo Text.maxU64),
  .of "REDIS_CONNECTION_TIMEOUT" (naturalUpTo Text.maxU64),
  .of "REDIS_COMMAND_TIMEOUT" (naturalUpTo Text.maxU64),
  .of "REDIS_KEEPALIVE" switchLanguage,
  .of "REDIS_RETRY_ON_TIMEOUT" switchLanguage,
  .of "REDIS_HEALTH_CHECK_INTERVAL" (naturalUpTo Text.maxU64),
  .of "READ_RATE_LIMITING_PER_MIN" integerLanguage,
  .of "WRITE_RATE_LIMITING_PER_MIN" integerLanguage,
  .of "TRUST_PROXY_HEADERS" switchLanguage]

/-- The settings are those that the source of texts describes. -/
structure Describes (lookup : Lookup) (s : Settings) : Prop where
  serverHost : s.serverHost = (lookup "SERVER_HOST").getD "0.0.0.0"
  serverPort : Yields lookup "SERVER_PORT" (naturalUpTo Text.maxU16) 3000 s.serverPort
  basePath : s.basePath = (lookup "API_BASE_URI").getD "/api"
  store : Yields lookup "CACHE_BACKEND" storeLanguage .redis s.store
  host : s.redis.host = (lookup "REDIS_HOST").getD "localhost"
  port : Yields lookup "REDIS_PORT" (naturalUpTo Text.maxU16) 6379 s.redis.port
  db : Yields lookup "REDIS_DB" integerLanguage 0 s.redis.db
  /-- An empty password is none. -/
  password : s.redis.password = if lookup "REDIS_PASSWORD" = some "" then none
    else lookup "REDIS_PASSWORD"
  maxConnections : Yields lookup "REDIS_MAX_CONNECTIONS" (naturalUpTo Text.maxU64) 10
    s.redis.maxConnections
  connectTimeout : Yields lookup "REDIS_CONNECTION_TIMEOUT" (naturalUpTo Text.maxU64) 5
    s.redis.connectTimeout
  commandTimeout : Yields lookup "REDIS_COMMAND_TIMEOUT" (naturalUpTo Text.maxU64) 5
    s.redis.commandTimeout
  keepalive : Yields lookup "REDIS_KEEPALIVE" switchLanguage true s.redis.keepalive
  retryOnTimeout : Yields lookup "REDIS_RETRY_ON_TIMEOUT" switchLanguage true
    s.redis.retryOnTimeout
  healthCheckInterval : Yields lookup "REDIS_HEALTH_CHECK_INTERVAL"
    (naturalUpTo Text.maxU64) 30 s.redis.healthCheckInterval
  readPerMin : Yields lookup "READ_RATE_LIMITING_PER_MIN" integerLanguage 60
    s.limits.readPerMin
  writePerMin : Yields lookup "WRITE_RATE_LIMITING_PER_MIN" integerLanguage 10
    s.limits.writePerMin
  trustProxyHeaders : Yields lookup "TRUST_PROXY_HEADERS" switchLanguage false
    s.limits.trustProxyHeaders

theorem filter_ne_empty (o : Option String) :
    (o.filter fun p => p ≠ "") = if o = some "" then none else o := by
  cases o with
  | none => rfl
  | some p => by_cases hp : p = "" <;> simp [hp, Option.filter]

theorem ofLookup_eq_ok_iff {lookup : Lookup} {s : Settings} :
    ofLookup lookup = .ok s ↔ Describes lookup s := by
  simp only [ofLookup, bind_eq_ok_iff, read_eq_ok_iff reads_port?, read_eq_ok_iff reads_store?,
    read_eq_ok_iff reads_signed?, read_eq_ok_iff reads_count?, read_eq_ok_iff reads_switch?,
    filter_ne_empty, pure, Except.pure, Except.ok.injEq]
  constructor
  · rintro ⟨_, serverPort, _, store, _, port, _, db, _, maxConnections, _, connectTimeout, _,
      commandTimeout, _, keepalive, _, retryOnTimeout, _, healthCheckInterval, _, readPerMin, _,
      writePerMin, _, trustProxyHeaders, rfl⟩
    exact ⟨rfl, serverPort, rfl, store, rfl, port, db, rfl, maxConnections, connectTimeout,
      commandTimeout, keepalive, retryOnTimeout, healthCheckInterval, readPerMin, writePerMin,
      trustProxyHeaders⟩
  · intro h
    refine ⟨_, h.serverPort, _, h.store, _, h.port, _, h.db, _, h.maxConnections, _,
      h.connectTimeout, _, h.commandTimeout, _, h.keepalive, _, h.retryOnTimeout, _,
      h.healthCheckInterval, _, h.readPerMin, _, h.writePerMin, _, h.trustProxyHeaders, ?_⟩
    rw [← h.serverHost, ← h.basePath, ← h.host, ← h.password]

theorem ofLookup_eq_error_iff {lookup : Lookup} {e : InvalidSetting} :
    ofLookup lookup = .error e ↔ FirstInvalid lookup typed e := by
  unfold ofLookup typed
  refine bind_read_eq_error_iff reads_port? fun _ => ?_
  refine bind_read_eq_error_iff reads_store? fun _ => ?_
  refine bind_read_eq_error_iff reads_port? fun _ => ?_
  refine bind_read_eq_error_iff reads_signed? fun _ => ?_
  refine bind_read_eq_error_iff reads_count? fun _ => ?_
  refine bind_read_eq_error_iff reads_count? fun _ => ?_
  refine bind_read_eq_error_iff reads_count? fun _ => ?_
  refine bind_read_eq_error_iff reads_switch? fun _ => ?_
  refine bind_read_eq_error_iff reads_switch? fun _ => ?_
  refine bind_read_eq_error_iff reads_count? fun _ => ?_
  refine bind_read_eq_error_iff reads_signed? fun _ => ?_
  refine bind_read_eq_error_iff reads_signed? fun _ => ?_
  refine bind_read_eq_error_iff reads_switch? fun _ => ?_
  exact ⟨fun h => (nomatch h), fun h => (nomatch h)⟩

/-- Settings come from a source of texts exactly if every typed one is missing or set to a text of
its language, and then each is what its text stands for or its default. Otherwise the first that is
set to another text is reported with that text as it is, and the later ones do not matter. -/
theorem ofLookup_grammar (lookup : Lookup) :
    ((∃ s, ofLookup lookup = .ok s) ↔ ∀ f ∈ typed, f.Sound lookup) ∧
      (∀ s, ofLookup lookup = .ok s ↔ Describes lookup s) ∧
      (∀ e, ofLookup lookup = .error e ↔ FirstInvalid lookup typed e) ∧
      ∀ e, ofLookup lookup = .error e → ∀ other : Lookup,
        (∀ f ∈ upTo e.key typed, other f.name = lookup f.name) → ofLookup other = .error e := by
  refine ⟨⟨?_, fun sound => ?_⟩, fun s => ofLookup_eq_ok_iff, fun e => ofLookup_eq_error_iff,
    fun e refused other same => ?_⟩
  · rintro ⟨s, accepted⟩
    refine (sound_or_firstInvalid lookup typed).resolve_right ?_
    rintro ⟨e, invalid⟩
    rw [ofLookup_eq_error_iff.mpr invalid] at accepted
    cases accepted
  · cases hread : ofLookup lookup with
    | ok s => exact ⟨s, rfl⟩
    | error e =>
      obtain ⟨f, hf, -, unsound⟩ := (ofLookup_eq_error_iff.mp hread).not_sound
      exact absurd (sound f hf) unsound
  · have distinct : (typed.map (·.name)).Nodup := by decide
    exact ofLookup_eq_error_iff.mpr ((ofLookup_eq_error_iff.mp refused).congr distinct same)

end Settings

end Turnstile
