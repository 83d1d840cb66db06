import Turnstile.Proofs.Redis.Url
import Turnstile.Proofs.Runs.Store
import Turnstile.Redis.Client

/-!
# The password on every connection

Runs of a limiter over a Redis server that may be tampered with at any time. Every connection that
the server accepts is opened with the same commands, which the URL determines (`Introduced.keeps`).
So the password that was set is shown on every connection exactly if it can be read from the URL in
which it was written down (`password_delivered_iff`).
-/

namespace Turnstile

/-- A request goes to the store, whatever the limiter does to wait for the answer. -/
theorem Limiter.backend_startCall {σ : Type} {B : Backend σ} (s : Limiter σ) (conn : ConnId)
    (command : Command) (patience : Option Nat) :
    (s.startCall B conn command patience).1.backend = (B.start s.backend conn command).1 := by
  unfold startCall
  dsimp only
  cases (B.start s.backend conn command).2 <;> cases patience <;> rfl

namespace Redis

/-- Something that is done to a server, or to the way to it, from outside. -/
inductive ServerChange where
  | tick (ms : Nat)
  | store (key value : String) (ttl : Option Nat)
  | flushScripts
  | stall (commands : List String)
  | refuse (commands : List String)
  | down
  | up
  | drop
deriving DecidableEq, Repr

/-- Whether the command is one that connections are opened with. -/
def Request.isGreeting : Request → Bool
  | .auth _ | .setInfo | .select _ => true
  | _ => false

/-- The commands of this kind that a server has received, the first one in front. -/
def Server.greetings (s : Server) : List Request := s.received.reverse.filter Request.isGreeting

namespace Client

/-- The change is made to the server; one that is down has lost its connections. -/
def tend (c : Client) : ServerChange → Client
  | .tick ms => { c with server := { c.server with clock := c.server.clock + ms } }
  | .store key value ttl =>
    { c with server := { c.server with
      keys := c.server.keys.put key ⟨value, ttl.map fun ms => c.server.clock + ms⟩ } }
  | .flushScripts => { c with server := { c.server with hasScript := false } }
  | .stall commands => { c with server := { c.server with stalled := commands } }
  | .refuse commands => { c with server := { c.server with failing := commands } }
  | .down => { c with server := { c.server with up := false } }.drop
  | .up => { c with server := { c.server with up := true } }
  | .drop => c.drop

def surroundings : Surroundings Client ServerChange := ⟨backend, fun _ c change => c.tend change⟩

/-- Every connection was opened with the commands that the URL asks for. -/
structure Introduced (url : RedisUrl) (c : Client) : Prop where
  url_eq : c.url = url
  greetings : c.server.greetings = (List.replicate c.server.accepted (handshake url)).flatten

variable {c c' : Client} {url : RedisUrl}

theorem received_receive (s : Server) (trusted : Bool) (r : Request) :
    (s.receive trusted r).1.received = r :: s.received ∧
      (s.receive trusted r).1.accepted = s.accepted := by
  unfold Server.receive Server.execute
  dsimp only
  repeat' split
  all_goals exact ⟨rfl, rfl⟩

theorem received_greet (s : Server) (trusted : Bool) (g : Greeting) (rs : List Request) :
    (greet s trusted g rs).1.received = rs.reverse ++ s.received ∧
      (greet s trusted g rs).1.accepted = s.accepted := by
  induction rs generalizing s trusted g with
  | nil => exact ⟨rfl, rfl⟩
  | cons r rest ih =>
    obtain ⟨hreceived, haccepted⟩ := received_receive s trusted r
    unfold greet
    dsimp only
    rw [(ih ..).1, (ih ..).2, hreceived, haccepted]
    simp

theorem isGreeting_of_mem_handshake (url : RedisUrl) :
    ∀ r ∈ handshake url, r.isGreeting = true := by
  intro r hr
  unfold handshake at hr
  simp only [List.mem_append, Option.mem_toList, Option.map_eq_some_iff] at hr
  rcases hr with (⟨password, -, rfl⟩ | hr) | hr
  · rfl
  · simp at hr
    subst hr
    rfl
  · split at hr
    · cases hr
    · simp at hr
      subst hr
      rfl

/-- A connection is not accepted, or it is opened with the handshake. -/
theorem greetings_connect (c : Client) (conn : ConnId) :
    ((c.connect conn).1.server = c.server ∧ (c.linked = false ∨ c.server.up = false)) ∨
      (c.connect conn).1.server.greetings = c.server.greetings ++ handshake c.url ∧
        (c.connect conn).1.server.accepted = c.server.accepted + 1 := by
  obtain ⟨hreceived, haccepted⟩ := received_greet
    { c.server with accepted := c.server.accepted + 1 } c.server.password.isNone .welcome
    (handshake c.url)
  have hall := List.filter_eq_self.mpr (isGreeting_of_mem_handshake c.url)
  unfold connect
  split
  · rename_i hshut
    exact .inl ⟨rfl, by simpa using hshut⟩
  · dsimp only
    generalize greet { c.server with accepted := c.server.accepted + 1 } c.server.password.isNone
      .welcome (handshake c.url) = greeted at hreceived haccepted ⊢
    obtain ⟨server, trusted, greeting⟩ := greeted
    have hgreetings : server.greetings = c.server.greetings ++ handshake c.url := by
      unfold Server.greetings
      rw [hreceived, List.reverse_append, List.reverse_reverse, List.filter_append, hall]
    cases greeting <;> exact .inr ⟨hgreetings, haccepted⟩

theorem url_connect (c : Client) (conn : ConnId) : (c.connect conn).1.url = c.url := by
  unfold connect
  split
  · rfl
  · dsimp only
    split <;> rfl

theorem Introduced.connect (h : c.Introduced url) (conn : ConnId) :
    (c.connect conn).1.Introduced url := by
  refine ⟨(url_connect c conn).trans h.url_eq, ?_⟩
  rcases greetings_connect c conn with ⟨hserver, -⟩ | ⟨hgreetings, haccepted⟩
  · rw [hserver]
    exact h.greetings
  · rw [hgreetings, haccepted, h.greetings, h.url_eq, List.replicate_succ']
    simp

/-- A command that is none of the opening ones. -/
theorem Introduced.send (h : c.Introduced url) (trusted : Bool) {r : Request}
    (hr : r.isGreeting = false) : (c.send trusted r).1.Introduced url := by
  obtain ⟨hreceived, haccepted⟩ := received_receive c.server trusted r
  refine ⟨h.url_eq, ?_⟩
  have hserver : (c.send trusted r).1.server = (c.server.receive trusted r).1 := rfl
  unfold Server.greetings
  rw [hserver, hreceived, haccepted, List.reverse_cons, List.filter_append, ← h.greetings]
  simp [Server.greetings, hr]

theorem Introduced.settle (h : c.Introduced url) (conn : ConnId) (response : Response) :
    (c.settle conn response).1.Introduced url := by
  cases response <;> exact ⟨h.url_eq, h.greetings⟩

theorem Introduced.count (h : c.Introduced url) (trusted : Bool) (key : String)
    (limit windowMs : Nat) : (c.count trusted key limit windowMs).1.Introduced url := by
  have hasked := h.send trusted (r := .evalSha key limit windowMs) rfl
  unfold Client.count
  split
  · rename_i asked heq
    rw [heq] at hasked
    have hloaded := hasked.send trusted (r := .scriptLoad) rfl
    split
    · rename_i loaded heq
      rw [heq] at hloaded
      exact hloaded.send trusted rfl
    · exact hloaded
  · exact hasked

theorem Introduced.start (h : c.Introduced url) (conn : ConnId) (command : Command) :
    (c.start conn command).1.Introduced url := by
  cases command with
  | connect => exact h.connect conn
  | ping =>
    simp only [Client.start]
    cases Table.get? c.connections conn with
    | none => exact ⟨h.url_eq, h.greetings⟩
    | some trusted => exact (h.send trusted rfl).settle conn _
  | count key limit windowMs =>
    simp only [Client.start]
    cases Table.get? c.connections conn with
    | none => exact ⟨h.url_eq, h.greetings⟩
    | some trusted => exact (h.count trusted key limit windowMs).settle conn _

theorem Introduced.keeps (url : RedisUrl) :
    Limiter.Keeps surroundings (Introduced url) where
  start conn command h := h.start conn command
  finish _ _ _ h := ⟨h.url_eq, h.greetings⟩
  tend _ change h := by cases change <;> exact ⟨h.url_eq, h.greetings⟩

theorem Introduced.fresh (password : Option String) (linked : Bool) (url : RedisUrl)
    (settings : RedisSettings) :
    (Client.fresh (Server.fresh password) linked url settings).Introduced url :=
  ⟨rfl, rfl⟩

end Client

end Redis

/-! ## What settings amount to -/

namespace RedisSettings

open Redis

/-- The commands that are to open every connection: the password is shown, and then the database is
chosen unless it is the first. -/
def greeting (r : RedisSettings) (password : String) : List Redis.Request :=
  [.auth password, .setInfo, .setInfo] ++ if r.db = 0 then [] else [.select r.db]

/-- The settings describe a server at the place that was set; and in every run of a limiter over
such a server, whatever password it asks for itself and however it is tampered with, every
connection that it accepts is opened with the password. -/
def Delivers (r : RedisSettings) (password : String) : Prop :=
  ∃ url, r.server? = some url ∧ url.host = r.host ∧ url.port = r.port ∧ url.db = r.db ∧
    ∀ (demanded : Option String) (linked : Bool) (settings : PoolSettings)
      (moves : List (Move ServerChange)),
      let server := ((Limiter.fresh (Client.fresh (.fresh demanded) linked url r) settings).run
        Client.surroundings moves).backend.server
      server.greetings = (List.replicate server.accepted (r.greeting password)).flatten

variable {r : RedisSettings} {p : String}

/-- Somebody opens one connection. -/
theorem password_of_delivers (h : r.Delivers p) :
    ∃ url, r.server? = some url ∧ url.password = some p := by
  obtain ⟨url, hurl, -, -, -, every⟩ := h
  refine ⟨url, hurl, ?_⟩
  have hone := every none true .standard [.start [.connect], .step 0]
  let c := Client.fresh (.fresh none) true url r
  let u := { ((Limiter.fresh c .standard).start [.connect]).1 with nextConn := 1 }
  have hstep : (Limiter.fresh c .standard).run Client.surroundings [.start [.connect], .step 0] =
    (u.startCall Client.backend 0 .connect none).1.setStage 0
      (.calling (u.startCall Client.backend 0 .connect none).2) := rfl
  have hbackend : ((Limiter.fresh c .standard).run Client.surroundings
      [.start [.connect], .step 0]).backend = (c.connect 0).1 := by
    rw [hstep]
    exact Limiter.backend_startCall u 0 .connect none
  rcases Client.greetings_connect c 0 with ⟨-, hshut⟩ | ⟨hgreetings, haccepted⟩
  · rcases hshut with hshut | hshut <;> cases hshut
  · -- the one connection was opened with the handshake and with the password
    dsimp only at hone
    rw [hbackend, hgreetings, haccepted] at hone
    have hshown : Client.handshake url = r.greeting p := by
      have hnone : c.server.greetings = [] := rfl
      have hfirst : c.server.accepted + 1 = 1 := rfl
      have hurl : c.url = url := rfl
      rw [hnone, hfirst, hurl, List.nil_append] at hone
      simpa using hone
    cases hpassword : url.password with
    | none => simp [Client.handshake, greeting, hpassword] at hshown
    | some q =>
      simp only [Client.handshake, greeting, hpassword, Option.map_some, Option.toList_some,
        List.cons_append] at hshown
      exact congrArg some (Request.auth.inj (List.cons.inj hshown).1)

/-- Every connection is opened with a password exactly if that is the one in the URL. -/
theorem delivers_iff (hp : r.password = some p) (nonempty : p ≠ "")
    (unbroken : ∀ c ∈ p.toList, RedisUrl.isDropped c = false) (name : RedisUrl.IsHostName r.host)
    (range : r.InRange) : r.Delivers p ↔ RedisUrl.IsPlain p := by
  constructor
  · intro h
    obtain ⟨url, hread⟩ := password_of_delivers h
    exact ((server?_iff hp nonempty unbroken name range).mp hread).1
  · intro plain
    obtain ⟨hread, -⟩ := (server?_iff hp nonempty unbroken name range).mpr ⟨plain, rfl⟩
    refine ⟨_, hread, rfl, rfl, rfl, fun demanded linked settings moves => ?_⟩
    exact ((Client.Introduced.keeps _).run (.fresh demanded linked _ r) settings moves).greetings

end RedisSettings

/-! ## Settings from a source of texts -/

namespace Settings

theorem read_cases {α : Type} {lookup : Lookup} {key : String} {form : String → Option α}
    {default value : α} (h : read lookup key form default = .ok value) :
    value = default ∨ ∃ raw, form raw = some value := by
  unfold read at h
  split at h
  · cases h
    exact .inl rfl
  · split at h
    · rename_i heq
      cases h
      exact .inr ⟨_, heq⟩
    · cases h

theorem bind_eq_ok {α β : Type} {x : Except InvalidSetting α} {f : α → Except InvalidSetting β}
    {b : β} (h : x >>= f = .ok b) : ∃ a, x = .ok a ∧ f a = .ok b := by
  cases x with
  | error e => cases h
  | ok a => exact ⟨a, rfl, h⟩

/-- Settings that are accepted have their numbers in range, and the password that was set. -/
theorem redis_of_ofLookup {lookup : Lookup} {settings : Settings}
    (accepted : ofLookup lookup = .ok settings) :
    settings.redis.InRange ∧
      settings.redis.password = (lookup "REDIS_PASSWORD").filter (· ≠ "") := by
  unfold ofLookup at accepted
  obtain ⟨_, -, accepted⟩ := bind_eq_ok accepted
  obtain ⟨_, -, accepted⟩ := bind_eq_ok accepted
  obtain ⟨port, hport, accepted⟩ := bind_eq_ok accepted
  obtain ⟨db, hdb, accepted⟩ := bind_eq_ok accepted
  -- the other settings do not matter for the URL
  iterate 9 obtain ⟨_, -, accepted⟩ := bind_eq_ok accepted
  have hportRange : port ≤ Text.maxU16 := by
    rcases read_cases hport with rfl | ⟨raw, hraw⟩
    · decide
    · exact Text.le_of_natural? hraw
  have hdbRange : Text.minI64 ≤ db ∧ db ≤ Text.maxI64 := by
    rcases read_cases hdb with rfl | ⟨raw, hraw⟩
    · decide
    · exact Text.range_of_integer? hraw
  cases accepted
  exact ⟨⟨hportRange, hdbRange⟩, rfl⟩

/-- A password with no tab and no line break in it was set, and the host has an ordinary name. The
password is shown on every connection, and the server is the one that was set, exactly if the
password is plain: it has no slash, question mark or number sign in it, and no escape. -/
theorem password_delivered_iff {lookup : Lookup} {settings : Settings} {p : String}
    (accepted : ofLookup lookup = .ok settings) (set : lookup "REDIS_PASSWORD" = some p)
    (nonempty : p ≠ "") (unbroken : ∀ c ∈ p.toList, RedisUrl.isDropped c = false)
    (name : RedisUrl.IsHostName settings.redis.host) :
    settings.redis.Delivers p ↔ RedisUrl.IsPlain p := by
  obtain ⟨range, hpassword⟩ := redis_of_ofLookup accepted
  rw [set] at hpassword
  have hp : settings.redis.password = some p :=
    hpassword.trans (if_pos (decide_eq_true nonempty))
  exact RedisSettings.delivers_iff hp nonempty unbroken name range

/-- A source of texts in which only the host and the password are set. -/
def withPassword (host password : String) : Lookup := fun key =>
  if key = "REDIS_HOST" then some host
  else if key = "REDIS_PASSWORD" then some password
  else none

/-- The settings that come from it. -/
def ofPassword (host password : String) : Settings where
  serverHost := "0.0.0.0"
  serverPort := 3000
  basePath := "/api"
  store := .redis
  redis := ⟨host, 6379, 0, some password, 10, 5, 5, true, true, 30⟩
  limits := ⟨60, 10, false⟩

/-- A password with an `@`, with colons, with a percent sign that starts no escape, with a space and
with a letter that is not ASCII. -/
theorem password_delivered_iff_oddPassword :
    let lookup := withPassword "cache-1.local" "p@:%zz é"
    let settings := ofPassword "cache-1.local" "p@:%zz é"
    (ofLookup lookup = .ok settings ∧ lookup "REDIS_PASSWORD" = some "p@:%zz é" ∧
      "p@:%zz é" ≠ "" ∧ (∀ c ∈ "p@:%zz é".toList, RedisUrl.isDropped c = false) ∧
      RedisUrl.IsHostName settings.redis.host) ∧
    settings.redis.Delivers "p@:%zz é" := by
  intro lookup settings
  have accepted : ofLookup lookup = .ok settings := rfl
  have unbroken : ∀ c ∈ "p@:%zz é".toList, RedisUrl.isDropped c = false := by
    simp [RedisUrl.isDropped]
  have name : RedisUrl.IsHostName settings.redis.host :=
    ⟨by decide, List.all_eq_true.mp (by decide)⟩
  have plain : RedisUrl.IsPlain "p@:%zz é" := ⟨by simp [RedisUrl.endsAuthority], by decide⟩
  exact ⟨⟨accepted, rfl, by decide, unbroken, name⟩,
    (password_delivered_iff accepted rfl (by decide) unbroken name).mpr plain⟩

/-- A password with a question mark in it ends the part of the URL in which it stands, and no server
can be read from the URL at all. One with an escape in it is read as another password. -/
theorem password_not_delivered :
    let lookup := withPassword "localhost" "p?x"
    let settings := ofPassword "localhost" "p?x"
    ofLookup lookup = .ok settings ∧ lookup "REDIS_PASSWORD" = some "p?x" ∧
      (∀ c ∈ "p?x".toList, 0x20 ≤ c.toNat ∧ c.toNat < 0x7f) ∧
      RedisUrl.IsHostName settings.redis.host ∧
      settings.redis.server? = none ∧ ¬ settings.redis.Delivers "p?x" ∧
      (ofPassword "localhost" "a%41").redis.server? =
        some ⟨"localhost", 6379, 0, "", some "aA"⟩ := by
  intro lookup settings
  have unread : settings.redis.server? = none := by decide +kernel
  have name : RedisUrl.IsHostName settings.redis.host :=
    ⟨by decide, List.all_eq_true.mp (by decide)⟩
  refine ⟨rfl, rfl, by simp, name, unread, ?_, by decide +kernel⟩
  rintro ⟨url, hurl, -⟩
  rw [unread] at hurl
  cases hurl

end Settings

end Turnstile
