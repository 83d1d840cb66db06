import Turnstile.Proofs.Http.Mounting
import Turnstile.Proofs.Settings
import Turnstile.Session.Memory
import Turnstile.Session.Redis
import Turnstile.Startup

/-!
# What comes of starting the service

A limit below one a minute is reported. Two other things are not: a pool of more connections than
there can be, and a base that takes no route. Settings with one of them are accepted like any
others, and the service crashes with them (`launch_cases`); it does so exactly with these.
-/

namespace Turnstile

/-! ## Pools and limits -/

theorem PoolSettings.tooLarge_iff (r : RedisSettings) :
    maxCapacity < (ofRedis r).capacity ↔ maxCapacity < r.maxConnections := by
  simp only [maxCapacity, capacity, ofRedis]
  omega

namespace Limit

theorem perMinute_eq_ok_iff {times : Int} {l : Limit} :
    perMinute times = .ok l ↔ l.times = times ∧ l.seconds = 60 := by
  unfold perMinute ofInts
  constructor
  · intro h
    split at h
    · cases h
      exact ⟨Int.toNat_of_nonneg (by omega), rfl⟩
    · cases h
  · rintro ⟨rfl, hseconds⟩
    have hpos : (0 : Int) < l.times := Int.natCast_pos.mpr l.times_pos
    rw [dif_pos ⟨hpos, by decide, by decide⟩]
    obtain ⟨times, seconds, _, _, _⟩ := l
    obtain rfl : seconds = 60 := hseconds
    rfl

theorem perMinute_eq_error_iff {times : Int} {e : InvalidLimit} :
    perMinute times = .error e ↔ times < 1 ∧ e = ⟨times, 60⟩ := by
  unfold perMinute
  constructor
  · intro h
    refine ⟨?_, ofInts_eq_error h⟩
    by_contra hpos
    rw [ofInts, dif_pos ⟨by omega, by decide, by decide⟩] at h
    cases h
  · rintro ⟨hlt, rfl⟩
    rw [ofInts, dif_neg fun h => by omega]

end Limit

/-! ## The site -/

/-- The limit that is reported: the one for reading if it is below one, else the one for writing. -/
inductive LimitSettings.Refused (limits : LimitSettings) : InvalidLimit → Prop where
  | read (below : limits.readPerMin < 1) : Refused limits ⟨limits.readPerMin, 60⟩
  | write (enough : 1 ≤ limits.readPerMin) (below : limits.writePerMin < 1) :
    Refused limits ⟨limits.writePerMin, 60⟩

/-- A limit is reported exactly if one is below one. -/
theorem LimitSettings.exists_refused_iff {limits : LimitSettings} :
    (∃ e, limits.Refused e) ↔ limits.readPerMin < 1 ∨ limits.writePerMin < 1 := by
  constructor
  · rintro ⟨_, below | ⟨-, below⟩⟩
    · exact .inl below
    · exact .inr below
  · intro h
    by_cases below : limits.readPerMin < 1
    · exact ⟨_, .read below⟩
    · exact ⟨_, .write (by omega) (h.resolve_left below)⟩

namespace Policy

/-- The policy has the limits that are set, for the services of a route. -/
structure Follows (route : String) (limits : LimitSettings) (p : Policy) : Prop where
  read : p.read.times = limits.readPerMin ∧ p.read.seconds = 60
  write : p.write.times = limits.writePerMin ∧ p.write.seconds = 60
  services : p.readService = route ++ "_read" ∧ p.writeService = route ++ "_write"
  proxies : p.trustProxyHeaders = limits.trustProxyHeaders

variable {route : String} {limits : LimitSettings} {e : InvalidLimit} {p : Policy}

theorem Follows.not_refused (follows : Follows route limits p) : ¬limits.Refused e := by
  intro refused
  have hread := follows.read.1
  have hwrite := follows.write.1
  have := p.read.times_pos
  have := p.write.times_pos
  cases refused <;> omega

theorem perMinute_cases (route : String) (limits : LimitSettings) :
    (∃ e, perMinute route limits = .error e ∧ limits.Refused e) ∨
      ∃ p, perMinute route limits = .ok p ∧ Follows route limits p := by
  unfold perMinute
  cases hread : Limit.perMinute limits.readPerMin with
  | error e =>
    obtain ⟨below, rfl⟩ := Limit.perMinute_eq_error_iff.mp hread
    exact .inl ⟨_, rfl, .read below⟩
  | ok read =>
    have read := Limit.perMinute_eq_ok_iff.mp hread
    cases hwrite : Limit.perMinute limits.writePerMin with
    | error e =>
      obtain ⟨below, rfl⟩ := Limit.perMinute_eq_error_iff.mp hwrite
      have := Limit.times_pos ‹_›
      exact .inl ⟨_, rfl, .write (by omega) below⟩
    | ok write => exact .inr ⟨_, rfl, read, Limit.perMinute_eq_ok_iff.mp hwrite, ⟨rfl, rfl⟩, rfl⟩

theorem perMinute_eq_error_iff : perMinute route limits = .error e ↔ limits.Refused e := by
  rcases perMinute_cases route limits with ⟨e', h, refused⟩ | ⟨p, h, follows⟩ <;> rw [h]
  · constructor
    · rintro ⟨⟩
      exact refused
    · intro refused'
      cases refused <;> cases refused' <;> first | rfl | omega
  · exact ⟨nofun, fun refused => absurd refused follows.not_refused⟩

end Policy

namespace Site

/-- The site serves the status under the base that is set, with the limits that are set. -/
structure Serves (s : Settings) (site : Site) : Prop where
  mounts : Route.Mounts s.basePath.toList statusPath.toList site.route
  follows : site.policy.Follows statusName s.limits

theorem ofSettings_eq_limit_iff {s : Settings} {e : InvalidLimit} :
    ofSettings s = .error (.limit e) ↔ s.limits.Refused e := by
  rw [← Policy.perMinute_eq_error_iff, ofSettings]
  cases Policy.perMinute statusName s.limits with
  | error e' => simp
  | ok p => cases Route.mount? s.basePath statusPath <;> simp

theorem ofSettings_eq_base_iff {s : Settings} : ofSettings s = .error .base ↔
    (¬∃ e, s.limits.Refused e) ∧ ¬Supported s.basePath := by
  simp only [Supported, ← Route.mount?_eq_some_iff]
  unfold ofSettings
  rcases Policy.perMinute_cases statusName s.limits with ⟨e, h, refused⟩ | ⟨p, h, follows⟩ <;>
    rw [h]
  · exact ⟨nofun, fun ⟨accepted, _⟩ => absurd ⟨e, refused⟩ accepted⟩
  · have accepted : ¬∃ e, s.limits.Refused e := fun ⟨_, refused⟩ => follows.not_refused refused
    cases Route.mount? s.basePath statusPath <;> simp [accepted]

theorem serves_of_ofSettings {s : Settings} {site : Site} (h : ofSettings s = .ok site) :
    Serves s site := by
  unfold ofSettings at h
  rcases Policy.perMinute_cases statusName s.limits with ⟨e, hpolicy, -⟩ | ⟨p, hpolicy, follows⟩
  · rw [hpolicy] at h
    cases h
  · rw [hpolicy] at h
    cases hroute : Route.mount? s.basePath statusPath with
    | none =>
      rw [hroute] at h
      cases h
    | some route =>
      rw [hroute] at h
      cases h
      exact ⟨Route.mount?_eq_some_iff.mp hroute, follows⟩

end Site

/-! ## Launching -/

/-- A session begins with its pool untouched, unless the pool would be too large. -/
structure Begins {σ : Type} (begin? : PoolSettings → Option (Session σ)) : Prop where
  none_iff : ∀ settings, begin? settings = none ↔ PoolSettings.maxCapacity < settings.capacity
  fresh : ∀ settings session, begin? settings = some session →
    session.limiter.settings = settings ∧ session.limiter.pool = .fresh settings.capacity

theorem MemorySession.begins (reason : Option String) :
    Begins fun settings => begin? settings reason where
  none_iff settings := by
    unfold begin?
    split <;> simp [*]
  fresh settings session h := by
    unfold begin? at h
    split at h
    · cases h
    · cases h
      cases reason <;> exact ⟨rfl, rfl⟩

theorem RedisSession.begins (client : Redis.Client) : Begins (begin? client) where
  none_iff settings := by
    unfold begin?
    split <;> simp [*]
  fresh settings session h := by
    unfold begin? at h
    split at h
    · cases h
    · cases h
      exact ⟨rfl, rfl⟩

/-- What comes of starting the service with these settings. -/
structure Launched {σ : Type} (s : Settings) (l : Launch σ) : Prop where
  crashed : l = .crashed ↔ PoolSettings.maxCapacity < s.redis.maxConnections ∨
    1 ≤ s.limits.readPerMin ∧ 1 ≤ s.limits.writePerMin ∧ ¬Site.Supported s.basePath
  refused : ∀ e, l = .refused e ↔
    s.redis.maxConnections ≤ PoolSettings.maxCapacity ∧ s.limits.Refused e
  running : ∀ session site, l = .running session site →
    session.limiter.settings = .ofRedis s.redis ∧
      session.limiter.pool = .fresh (max 1 s.redis.maxConnections) ∧ site.Serves s

theorem launched {σ : Type} {begin? : PoolSettings → Option (Session σ)} (begins : Begins begin?)
    (s : Settings) : Launched s (launch begin? s) := by
  have hrates : (1 ≤ s.limits.readPerMin ∧ 1 ≤ s.limits.writePerMin) ↔
      ¬∃ e, s.limits.Refused e := by
    rw [LimitSettings.exists_refused_iff]
    omega
  have hlarge := (begins.none_iff (.ofRedis s.redis)).trans (PoolSettings.tooLarge_iff s.redis)
  unfold launch
  cases hbegin : begin? (.ofRedis s.redis) with
  | none =>
    have large := hlarge.mp hbegin
    exact ⟨⟨fun _ => .inl large, fun _ => rfl⟩, fun e => ⟨nofun, fun h => by omega⟩, nofun⟩
  | some session =>
    have small : ¬PoolSettings.maxCapacity < s.redis.maxConnections := fun large => by
      rw [hlarge.mpr large] at hbegin
      cases hbegin
    obtain ⟨hsettings, hpool⟩ := begins.fresh _ _ hbegin
    cases hsite : Site.ofSettings s with
    | error fault =>
      cases fault with
      | limit e =>
        have refused := Site.ofSettings_eq_limit_iff.mp hsite
        refine ⟨⟨nofun, ?_⟩, fun e' => ⟨?_, ?_⟩, nofun⟩
        · rintro (large | ⟨hread, hwrite, -⟩)
          · exact absurd large small
          · exact absurd ⟨e, refused⟩ (hrates.mp ⟨hread, hwrite⟩)
        · rintro ⟨⟩
          exact ⟨Nat.le_of_not_lt small, refused⟩
        · rintro ⟨-, refused'⟩
          rw [Site.ofSettings_eq_limit_iff.mpr refused'] at hsite
          cases hsite
          rfl
      | base =>
        obtain ⟨accepted, unsupported⟩ := Site.ofSettings_eq_base_iff.mp hsite
        obtain ⟨hread, hwrite⟩ := hrates.mpr accepted
        refine ⟨⟨fun _ => .inr ⟨hread, hwrite, unsupported⟩, fun _ => rfl⟩, fun e => ⟨nofun, ?_⟩,
          nofun⟩
        rintro ⟨-, refused⟩
        exact absurd ⟨e, refused⟩ accepted
    | ok site =>
      have serves := Site.serves_of_ofSettings hsite
      refine ⟨⟨nofun, ?_⟩, fun e => ⟨nofun, ?_⟩, ?_⟩
      · rintro (large | ⟨-, -, unsupported⟩)
        · exact absurd large small
        · exact absurd ⟨_, serves.mounts⟩ unsupported
      · rintro ⟨-, refused⟩
        exact absurd refused serves.follows.not_refused
      · rintro _ _ ⟨⟩
        have hcapacity :
            (PoolSettings.ofRedis s.redis).capacity = max 1 s.redis.maxConnections := by
          simp [PoolSettings.capacity, PoolSettings.ofRedis]
        exact ⟨hsettings, hcapacity ▸ hpool, serves⟩

/-- Starting with settings that were accepted crashes exactly if the pool would be too large, or the
limits are enforceable and the base takes no route; neither can be if nothing is said of them. It
reports a limit exactly if one is below one and the pool is not too large. -/
theorem launch_cases {lookup : Settings.Lookup} {s : Settings}
    (accepted : Settings.ofLookup lookup = .ok s) (reason : Option String) (client : Redis.Client) :
    Launched s (launch (fun settings => MemorySession.begin? settings reason) s) ∧
      Launched s (launch (RedisSession.begin? client) s) ∧
      (lookup "REDIS_MAX_CONNECTIONS" = none → lookup "API_BASE_URI" = none →
        launch (fun settings => MemorySession.begin? settings reason) s ≠ .crashed ∧
          launch (RedisSession.begin? client) s ≠ .crashed) := by
  have inMemory := launched (MemorySession.begins reason) s
  have onServer := launched (RedisSession.begins client) s
  refine ⟨inMemory, onServer, fun hpool hbase => ?_⟩
  have describes := Settings.ofLookup_eq_ok_iff.mp accepted
  have hbase : s.basePath = "/api" := by rw [describes.basePath, hbase]; rfl
  have hpool : s.redis.maxConnections = 10 := by
    simpa only [Settings.Yields, hpool] using describes.maxConnections
  have supported : Site.Supported s.basePath := by
    rw [hbase]
    exact Site.supported_of_plain rfl (by decide) (by simp)
  have safe : ¬(PoolSettings.maxCapacity < s.redis.maxConnections ∨
      1 ≤ s.limits.readPerMin ∧ 1 ≤ s.limits.writePerMin ∧ ¬Site.Supported s.basePath) := by
    rintro (large | ⟨-, -, unsupported⟩)
    · rw [hpool] at large
      exact absurd large (by decide)
    · exact unsupported supported
  exact ⟨fun h => safe (inMemory.crashed.mp h), fun h => safe (onServer.crashed.mp h)⟩

/-- A source of texts in which only the base and the number of connections are set. -/
def withBase (base connections : String) : Settings.Lookup := fun key =>
  if key = "API_BASE_URI" then some base
  else if key = "REDIS_MAX_CONNECTIONS" then some connections
  else none

/-- The settings that come from it, given how the number is read. -/
def ofBase (base : String) (connections : Nat) : Settings where
  serverHost := "0.0.0.0"
  serverPort := 3000
  basePath := base
  store := .redis
  redis := ⟨"localhost", 6379, 0, none, connections, 5, 5, true, true, 30⟩
  limits := ⟨60, 10, false⟩

/-- The clients of a server at the default place. -/
def localClient : Redis.Client :=
  .fresh (.fresh none) true ⟨"localhost", 6379, 0, "", none⟩ (ofBase "/api" 10).redis

/-- A base with a capture in it, and a number with a sign and blank space. -/
theorem launch_cases_capture :
    let s := ofBase "/v1/\x7btenant\x7d" 20
    Settings.ofLookup (withBase "/v1/\x7btenant\x7d" " +20\t") = .ok s ∧
      launch (fun settings => MemorySession.begin? settings none) s ≠ .crashed ∧
      launch (RedisSession.begin? localClient) s ≠ .crashed ∧
      ∀ e, launch (RedisSession.begin? localClient) s ≠ .refused e := by
  intro s
  have accepted : Settings.ofLookup (withBase "/v1/\x7btenant\x7d" " +20\t") = .ok s := by
    decide +kernel
  obtain ⟨inMemory, onServer, -⟩ := launch_cases accepted none localClient
  have supported : Site.Supported s.basePath := by
    have mounted : (Route.mount? s.basePath Site.statusPath).isSome = true := by decide +kernel
    obtain ⟨route, hroute⟩ := Option.isSome_iff_exists.mp mounted
    exact ⟨route, Route.mount?_eq_some_iff.mp hroute⟩
  have safe : ¬(PoolSettings.maxCapacity < s.redis.maxConnections ∨
      1 ≤ s.limits.readPerMin ∧ 1 ≤ s.limits.writePerMin ∧ ¬Site.Supported s.basePath) := by
    rintro (large | ⟨-, -, unsupported⟩)
    · exact absurd large (by decide)
    · exact unsupported supported
  refine ⟨accepted, fun h => safe (inMemory.crashed.mp h), fun h => safe (onServer.crashed.mp h),
    fun e h => ?_⟩
  rcases LimitSettings.exists_refused_iff.mp ⟨e, ((onServer.refused e).mp h).2⟩ with h | h
  · exact absurd h (by decide)
  · exact absurd h (by decide)

/-- A pool with a connection too many, and bases that are empty, the root, without a slash at the
start, or with a capture that does not end its segment: all of them are accepted. -/
theorem crashed_at_launch :
    let begin? := fun settings => MemorySession.begin? settings none
    (Settings.ofLookup (withBase "/api" "2305843009213693952") =
        .ok (ofBase "/api" 2305843009213693952) ∧
      launch begin? (ofBase "/api" 2305843009213693952) = .crashed) ∧
    ∀ base ∈ ["", "/", "api", "/\x7btenant\x7d-v1"],
      Settings.ofLookup (withBase base "10") = .ok (ofBase base 10) ∧
        launch begin? (ofBase base 10) = .crashed := by
  intro begin?
  have crashed := fun s => (launched (MemorySession.begins none) s).crashed
  refine ⟨⟨by decide +kernel, (crashed _).mpr (.inl (by decide))⟩, fun base hbase => ?_⟩
  have accepted : ∀ base ∈ ["", "/", "api", "/\x7btenant\x7d-v1"],
      Settings.ofLookup (withBase base "10") = .ok (ofBase base 10) ∧
        Route.mount? base Site.statusPath = none := by decide +kernel
  obtain ⟨haccepted, unmounted⟩ := accepted base hbase
  refine ⟨haccepted, (crashed _).mpr (.inr ⟨?_, ?_, ?_⟩)⟩
  · show (1 : Int) ≤ 60
    decide
  · show (1 : Int) ≤ 10
    decide
  · rintro ⟨route, mounts⟩
    rw [← Route.mount?_eq_some_iff] at mounts
    exact nomatch mounts.symm.trans unmounted

end Turnstile
